import Ucollect.Proof.Spoof.Answers

/-
This file proves that the server credits each packet to the client that sent it, over every run of
the server with its clients.
-/

namespace Ucollect.Spoof
open Library Core List Function
open Flow (ByteOrder)

section Outputs

def Output.spoofed : Output → Bool
  | .datagram _ _ _ => false
  | .frame _ _ => true

/-- Some receiver of the output reads this content. -/
def Output.Carries : Output → Bytes → Prop
  | .datagram _ _ data, dgram => data = dgram
  | .frame _ bytes, dgram =>
    ∃ (capture : Capture) (seen : PacketMemory) (width : Width) (interface : String)
      (direction : Direction) (timestamp budget : Nat) (pool : Nat → PacketInfo)
      (ether ip : PacketInfo), capture.bytes = bytes ∧ capture.Starts seen ∧
        (ucParsePacket width seen (budget + 2) pool
          (capture.packet interface direction timestamp) dltEn10mb).result = some ether ∧
        ether.next = some ip ∧
        bytesAt seen (ip.data + ip.hdrLength) (ip.length - ip.hdrLength) = dgram

/-- All receivers of the output read the same packet with this token. -/
def Output.Bears (output : Output) (token : Bytes) : Prop :=
  ∀ dgram, output.Carries dgram → dgram = packetData token output.spoofed

theorem bears_datagram (request : RequestV4) : request.datagram.Bears request.token :=
  fun _ carried => carried.symm

theorem Spoofs.bears {request : RequestV4} {observed : PacketMemory} {info : PacketInfo}
    {name frame : Bytes} (spoofs : Spoofs request observed info frame) :
    (Output.frame name frame).Bears request.token := by
  rintro dgram ⟨capture, seen, width, interface, direction, timestamp, budget, pool, ether, ip,
    whole, starts, parsed, next, rfl⟩
  obtain ⟨other, inner, parsed', reads⟩ :=
    spoofs capture seen whole starts width interface direction timestamp budget pool
  rw [parsed] at parsed'
  cases parsed'
  obtain rfl : ip = inner := Option.some.inj (next.symm.trans reads.next)
  exact reads.data

/-- The server unpacks what the client packed. -/
theorem unpack_packetData {token : Bytes} (size : token.length = 8) (spoofed : Bool) :
    unpack (packetData token spoofed) = (magic, bigEndian token, spoofed) := by
  have first : (packetData token spoofed).take 4 = word32 magic := by
    rw [packetData, append_assoc, append_assoc]
    exact take_left' rfl
  have second : ((packetData token spoofed).drop 4).take 8 = token := by
    have behind : (packetData token spoofed).drop 4 =
        token ++ ([if spoofed then 1 else 0] ++ strncpy messageText mlen) := by
      rw [packetData, append_assoc, append_assoc]
      exact drop_left' rfl
    rw [behind, take_left' size]
  have before : (word32 magic ++ token).length = 12 := by
    rw [length_append, size]
    rfl
  have third : (packetData token spoofed).getD 12 0 = if spoofed then 1 else 0 := by
    rw [packetData, append_assoc (word32 magic ++ token), getD_append_right _ _ _ _
      (le_of_eq before), before]
    rfl
  rw [unpack, first, second, third, bigEndian_word32 (by decide)]
  cases spoofed <;> rfl

end Outputs

section Requests

variable {C A : Type} {plugin : SpoofPlugin C A} {clients : Finset C} {picked : List (C × Nat)}

/-- The server waits for both packets of a new token. -/
structure NewToken (picked : List (C × Nat)) (value : Nat) (token : Token C) : Prop where
  owner : (token.client, value) ∈ picked
  open_ : token.expectSpoofed = true ∧ token.expectOrdinary = true

theorem addToken_cases {now value : Nat} {tokens : Nat → Option (Token C)} {token : Token C}
    (found : picked.foldl (addToken now) tokens value = some token) :
    NewToken picked value token ∨ tokens value = some token := by
  induction picked generalizing tokens with
  | nil => exact Or.inr found
  | cons pick picked ih =>
    rcases ih found with later | here
    · exact Or.inl ⟨mem_cons_of_mem _ later.owner, later.open_⟩
    · rw [addToken, update_apply] at here
      split at here
      case isTrue same =>
        cases here
        exact Or.inl ⟨same ▸ mem_cons_self, rfl, rfl⟩
      case isFalse => exact Or.inr here

/-- A request has ten bytes before its token. -/
def Headed (head : Bytes) : Prop := ∃ fields, fields.length = 10 ∧ head = letter '4' :: fields

/-- The server asks each client that it picked, and remembers its token. -/
structure Asking (plugin : SpoofPlugin C A) (picked : List (C × Nat))
    (asking : SpoofPlugin C A × List (C × Bytes)) : Prop where
  tokens : ∀ value token, asking.1.tokens value = some token →
    NewToken picked value token ∨ plugin.tokens value = some token
  round : ∀ round, asking.1.round = some round → Headed round.head
  messages : ∀ message ∈ asking.2, ∃ head token,
    Headed head ∧ (message.1, token) ∈ picked ∧ message.2 = head ++ word64 token

variable [DecidableEq C]

theorem doSend_asking {round : Round C} (headed : Headed round.head) :
    Asking plugin picked (doSend plugin round clients picked) := by
  have message (entry : C × Bytes)
      (member : entry ∈ picked.map fun pick => (pick.1, round.head ++ word64 pick.2)) :
      ∃ head token, Headed head ∧ (entry.1, token) ∈ picked ∧ entry.2 = head ++ word64 token := by
    obtain ⟨pick, inside, rfl⟩ := List.mem_map.mp member
    exact ⟨round.head, pick.2, headed, inside, rfl⟩
  unfold doSend
  dsimp only
  split
  · refine ⟨fun value token found => addToken_cases found, fun other same => ?_, message⟩
    cases same
    exact headed
  · refine ⟨fun value token found => addToken_cases found, fun other same => ?_, message⟩
    cases same

theorem headed_config (config : Config A) : Headed config.head := by
  refine ⟨_, ?_, rfl⟩
  rw [length_append, length_append, config.widths.1, config.widths.2]
  rfl

theorem check_asking {config : Config A} {now : Nat} {due : Bool}
    (known : ∀ round, plugin.round = some round → Headed round.head) :
    Asking plugin picked (check plugin config now due clients picked) := by
  unfold check
  split
  · exact ⟨fun value token found => Or.inr found, known, fun message member => by cases member⟩
  dsimp only
  split
  · exact ⟨fun value token found => Or.inr found, known, fun message member => by cases member⟩
  · have asking := @doSend_asking C A { plugin with srcAddr := config.srcAddr } clients picked _
      ⟨∅, ∅, config.head, now⟩ (headed_config config)
    exact ⟨asking.tokens, asking.round, asking.messages⟩

end Requests

section Arrivals

variable {C A : Type} [DecidableEq A] {plugin final : SpoofPlugin C A} {now : Nat} {dgram : Bytes}
  {addr : A} {rows : List (Row C A)}

/-- These are all the things that the server does with a datagram. -/
inductive Received (plugin : SpoofPlugin C A) (dgram : Bytes) (addr : A) :
    SpoofPlugin C A → List (Row C A) → Prop where
  | ignored : Received plugin dgram addr plugin []
  | stored {value : Nat} {spoofed : Bool} {token : Token C} {now : Nat}
      (unpacked : unpack dgram = (magic, value, spoofed)) (known : plugin.tokens value = some token) :
      Received plugin dgram addr
        { plugin with
          tokens := update plugin.tokens value
            (if !(token.arrived spoofed).expectSpoofed && !(token.arrived spoofed).expectOrdinary
              then none else some (token.arrived spoofed)) }
        [⟨token.client, token.time, spoofed, !spoofed || addr == plugin.srcAddr, now, addr⟩]

@[simp] theorem Token.arrived_client (token : Token C) (spoofed : Bool) :
    (token.arrived spoofed).client = token.client := by
  cases spoofed <;> rfl

@[simp] theorem Token.arrived_time (token : Token C) (spoofed : Bool) :
    (token.arrived spoofed).time = token.time := by
  cases spoofed <;> rfl

theorem datagramReceived_cases
    (handled : datagramReceived plugin now dgram addr = (final, rows)) :
    Received plugin dgram addr final rows := by
  rw [datagramReceived] at handled
  split at handled
  · cases handled
    exact .ignored
  cases unpacked : unpack dgram with
  | mk found rest =>
    obtain ⟨value, spoofed⟩ := rest
    rw [unpacked] at handled
    dsimp only at handled
    by_cases same : found = magic
    · subst same
      rw [if_neg (not_not.mpr rfl)] at handled
      cases known : plugin.tokens value with
      | none =>
        rw [known] at handled
        cases handled
        exact .ignored
      | some token =>
        rw [known] at handled
        simp only [Token.arrived_client, Token.arrived_time] at handled
        cases handled
        exact .stored unpacked known
    · rw [if_pos same] at handled
      cases handled
      exact .ignored

end Arrivals

section Crediting

variable {C A : Type} {system : System C A}

/-- Every token that is seen anywhere was drawn for the client that it is seen with. -/
structure Credited (system : System C A) : Prop where
  distinct : (system.drawn.map Prod.snd).Nodup
  small : ∀ pick ∈ system.drawn, pick.2 < 2 ^ 64
  tokens : ∀ value token, system.plugin.tokens value = some token →
    (token.client, value) ∈ system.drawn
  round : ∀ round, system.plugin.round = some round → Headed round.head
  messages : ∀ message ∈ system.messages, ∃ head token,
    Headed head ∧ (message.1, token) ∈ system.drawn ∧ message.2 = head ++ word64 token
  users : ∀ client, (system.users client).expected → ∃ request token,
    Expects (system.users client) request ∧ request.token = word64 token ∧
      (client, token) ∈ system.drawn
  sent : ∀ entry ∈ system.sent, ∃ token,
    entry.2.Bears (word64 token) ∧ (entry.1, token) ∈ system.drawn
  rows : ∀ entry ∈ system.rows, ∃ value,
    unpack entry.2 = (magic, value, entry.1.spoofed) ∧ (entry.1.client, value) ∈ system.drawn

theorem credited_start (starts : system.Starts) : Credited system := by
  obtain ⟨tokens, round, _, users, drawn, messages, sent, rows⟩ := starts
  refine ⟨?_, ?_, ?_, ?_, ?_, ?_, ?_, ?_⟩
  · rw [drawn]
    exact nodup_nil
  · rw [drawn]
    exact forall_mem_nil _
  · intro value token found
    rw [tokens] at found
    cases found
  · intro other found
    rw [round] at found
    cases found
  · rw [messages]
    exact forall_mem_nil _
  · intro client expected
    rw [users] at expected
    cases expected
  · rw [sent]
    exact forall_mem_nil _
  · rw [rows]
    exact forall_mem_nil _

/-- New tokens do not disturb what is known about the old ones. -/
theorem Credited.asked (credited : Credited system) {picked : List (C × Nat)}
    {asking : SpoofPlugin C A × List (C × Bytes)} (asked : Asking system.plugin picked asking)
    (small : ∀ pick ∈ picked, pick.2 < 2 ^ 64) (fresh : system.Fresh picked) :
    Credited (system.asked picked asking) := by
  have old {pick : C × Nat} (known : pick ∈ system.drawn) : pick ∈ system.drawn ++ picked :=
    mem_append_left picked known
  have new {pick : C × Nat} (known : pick ∈ picked) : pick ∈ system.drawn ++ picked :=
    mem_append_right system.drawn known
  refine ⟨fresh, ?_, ?_, asked.round, ?_, ?_, ?_, ?_⟩
  · intro pick member
    exact (mem_append.mp member).elim (credited.small pick) (small pick)
  · intro value token found
    exact (asked.tokens value token found).elim (fun fresh => new fresh.owner)
      fun here => old (credited.tokens _ _ here)
  · intro message member
    rcases mem_append.mp member with early | late
    · obtain ⟨head, token, headed, known, same⟩ := credited.messages message early
      exact ⟨head, token, headed, old known, same⟩
    · obtain ⟨head, token, headed, known, same⟩ := asked.messages message late
      exact ⟨head, token, headed, new known, same⟩
  · intro client expected
    obtain ⟨request, token, expects, same, known⟩ := credited.users client expected
    exact ⟨request, token, expects, same, old known⟩
  · intro entry member
    obtain ⟨token, bears, known⟩ := credited.sent entry member
    exact ⟨token, bears, old known⟩
  · intro entry member
    obtain ⟨value, unpacked, known⟩ := credited.rows entry member
    exact ⟨value, unpacked, old known⟩

theorem Credited.cleanup (credited : Credited system) (batch : Finset Nat) :
    Credited { system with plugin := cleanup system.plugin batch } := by
  refine { credited with tokens := ?_, round := credited.round }
  intro value token found
  simp only [Spoof.cleanup] at found
  split at found
  · cases found
  · exact credited.tokens value token found

/-- A row is stored for a token that is in the table. -/
theorem Credited.arrived [DecidableEq A] (credited : Credited system) {dgram : Bytes} {addr : A}
    {final : SpoofPlugin C A} {rows : List (Row C A)}
    (received : Received system.plugin dgram addr final rows) :
    Credited (system.arrived dgram (final, rows)) := by
  cases received with
  | ignored =>
    refine { credited with rows := ?_ }
    intro entry member
    exact credited.rows entry (by simpa [System.arrived] using member)
  | @stored value spoofed token now unpacked known =>
    have owner := credited.tokens value token known
    refine { credited with tokens := ?_, round := credited.round, rows := ?_ }
    · intro other found same
      simp only [System.arrived, update_apply] at same
      split at same
      case isTrue here =>
        split at same
        · cases same
        · cases same
          rw [here, Token.arrived_client]
          exact owner
      case isFalse => exact credited.tokens other found same
    · intro entry member
      rcases mem_append.mp member with early | late
      · exact credited.rows entry early
      · obtain rfl := mem_singleton.mp late
        exact ⟨value, unpacked, owner⟩

/-- A client learns a token from its own messages only. -/
theorem Credited.handled [DecidableEq C] (credited : Credited system) {client : C}
    {order : ByteOrder} {width : Width} {event : Event} {final : UserData} {outputs : List Output}
    (parsed : event.Parsed width)
    (asks : ∀ request, event.Asks request → ∃ token,
      request.token = word64 token ∧ (client, token) ∈ system.drawn)
    (handled : Handled order width (system.users client) event final outputs) :
    Credited (system.handled client (final, outputs)) := by
  have others {user : UserData} {other : C} (different : other ≠ client)
      (expected : (update system.users client user other).expected) :
      ∃ request token, Expects (update system.users client user other) request ∧
        request.token = word64 token ∧ (other, token) ∈ system.drawn := by
    rw [update_of_ne different] at expected ⊢
    exact credited.users other expected
  have sentBy {output : Output} {token : Nat} (bears : output.Bears (word64 token))
      (known : (client, token) ∈ system.drawn) (entry : C × Output)
      (member : entry ∈ system.sent ++ [output].map fun output => (client, output)) :
      ∃ token, entry.2.Bears (word64 token) ∧ (entry.1, token) ∈ system.drawn := by
    rcases mem_append.mp member with early | late
    · exact credited.sent entry early
    · obtain rfl := mem_singleton.mp late
      exact ⟨token, bears, known⟩
  cases handled with
  | quiet kept =>
    refine { credited with users := ?_, sent := ?_ }
    · intro other expected
      by_cases same : other = client
      · subst same
        simp only [System.handled, update_self] at expected ⊢
        rcases kept with rfl | stopped
        · exact credited.users other expected
        · rw [stopped] at expected
          cases expected
      · exact others same expected
    · intro entry member
      exact credited.sent entry (by simpa [System.handled] using member)
  | @asked request _ asked expected expects =>
    obtain ⟨token, same, known⟩ := asks request asked
    refine { credited with users := ?_, sent := ?_ }
    · intro other expected
      by_cases here : other = client
      · subst here
        simp only [System.handled, update_self]
        exact ⟨request, token, expects, same, known⟩
      · exact others here expected
    · exact sentBy (same ▸ bears_datagram request) known
  | @answered memory info calls frame packet expected answers =>
    obtain ⟨request, token, expects, same, known⟩ := credited.users client expected
    have spoofs := answers.spoofs (Genuine.sound (packet ▸ parsed)) expects
    refine { credited with users := ?_, sent := ?_ }
    · intro other expected
      by_cases here : other = client
      · subst here
        simp only [System.handled, update_self] at expected
        cases expected
      · exact others here expected
    · exact sentBy (same ▸ spoofs.bears) known

end Crediting

section Closings

variable {C A : Type} {system : System C A}

/-- These are the kinds of the rows for a token, in the order of their arrival. -/
def System.kinds (system : System C A) (value : Nat) : List Bool :=
  (system.rows.filter fun entry => (unpack entry.2).2.1 = value).map fun entry => entry.1.spoofed

/-- The token remembers which kinds are missing, and is dropped when none is. -/
structure Remembers (kinds : List Bool) (token : Token C) : Prop where
  spoofed : token.expectSpoofed = !kinds.contains true
  ordinary : token.expectOrdinary = !kinds.contains false
  missing : token.expectSpoofed ∨ token.expectOrdinary

structure Closing (system : System C A) : Prop where
  opened : ∀ value token, system.plugin.tokens value = some token →
    Remembers (system.kinds value) token
  early : ∀ value, ∀ first ∈ (system.kinds value).dropLast,
    ∀ second ∈ (system.kinds value).dropLast, first = second

variable {kinds : List Bool}

/-- While a kind is missing, all rows are of the other kind. -/
theorem Remembers.same {token : Token C} (remembers : Remembers kinds token) :
    ∀ first ∈ kinds, ∀ second ∈ kinds, first = second := by
  intro first one second other
  by_contra different
  have both : true ∈ kinds ∧ false ∈ kinds := by
    cases first <;> cases second
    · exact absurd rfl different
    · exact ⟨other, one⟩
    · exact ⟨one, other⟩
    · exact absurd rfl different
  rcases remembers.missing with missing | missing
  · rw [remembers.spoofed, contains_iff_mem.mpr both.1] at missing
    cases missing
  · rw [remembers.ordinary, contains_iff_mem.mpr both.2] at missing
    cases missing

theorem Remembers.arrived {token : Token C} {spoofed : Bool} (remembers : Remembers kinds token)
    (kept : ¬ (!(token.arrived spoofed).expectSpoofed && !(token.arrived spoofed).expectOrdinary) =
      true) : Remembers (kinds ++ [spoofed]) (token.arrived spoofed) := by
  have first := remembers.spoofed
  have second := remembers.ordinary
  refine ⟨?_, ?_, ?_⟩
  · cases spoofed <;> simp [Token.arrived, first]
  · cases spoofed <;> simp [Token.arrived, second]
  · by_contra none
    obtain ⟨one, other⟩ := not_or.mp none
    exact kept (by simp [Bool.eq_false_iff.mpr one, Bool.eq_false_iff.mpr other])

theorem kinds_fresh (credited : Credited system) {value : Nat}
    (fresh : value ∉ system.drawn.map Prod.snd) : system.kinds value = [] := by
  rw [System.kinds, map_eq_nil_iff, filter_eq_nil_iff]
  intro entry member same
  obtain ⟨token, unpacked, owner⟩ := credited.rows entry member
  rw [unpacked, decide_eq_true_eq] at same
  exact fresh (List.mem_map.mpr ⟨_, owner, same⟩)

theorem Closing.asked (closing : Closing system) (credited : Credited system)
    {picked : List (C × Nat)} {asking : SpoofPlugin C A × List (C × Bytes)}
    (asked : Asking system.plugin picked asking) (fresh : system.Fresh picked) :
    Closing (system.asked picked asking) := by
  refine ⟨fun value token found => ?_, closing.early⟩
  rcases asked.tokens value token found with new | old
  · have none : system.kinds value = [] := by
      apply kinds_fresh credited
      rw [System.Fresh, map_append] at fresh
      exact fun member => (disjoint_of_nodup_append fresh) member
        (List.mem_map.mpr ⟨_, new.owner, rfl⟩)
    change Remembers (system.kinds value) token
    rw [none]
    exact ⟨new.open_.1, new.open_.2, Or.inl new.open_.1⟩
  · exact closing.opened value token old

theorem kinds_stored (dgram : Bytes) (final : SpoofPlugin C A) (row : Row C A) (value : Nat) :
    (system.arrived dgram (final, [row])).kinds value =
      system.kinds value ++ if (unpack dgram).2.1 = value then [row.spoofed] else [] := by
  rw [System.kinds, System.arrived, map_singleton, filter_append, map_append, System.kinds]
  by_cases here : (unpack dgram).2.1 = value
  · simp [here]
  · simp [here]

theorem Closing.arrived [DecidableEq A] (closing : Closing system) {dgram : Bytes} {addr : A}
    {final : SpoofPlugin C A} {rows : List (Row C A)}
    (received : Received system.plugin dgram addr final rows) :
    Closing (system.arrived dgram (final, rows)) := by
  cases received with
  | ignored =>
    have same (value : Nat) :
        (system.arrived dgram (system.plugin, [])).kinds value = system.kinds value := by
      rw [System.kinds, System.arrived, map_nil, append_nil]
      rfl
    refine ⟨fun value token found => ?_, fun value => ?_⟩
    · exact same value ▸ closing.opened value token found
    · exact same value ▸ closing.early value
  | @stored value spoofed token now unpacked known =>
    have remembers := closing.opened value token known
    refine ⟨fun other found same => ?_, fun other => ?_⟩
    · rw [kinds_stored, unpacked]
      simp only [System.arrived, update_apply] at same
      by_cases here : other = value
      · subst here
        rw [if_pos rfl] at same ⊢
        split at same
        · cases same
        · cases same
          exact remembers.arrived ‹_›
      · rw [if_neg here] at same
        rw [if_neg (Ne.symm here), append_nil]
        exact closing.opened other found same
    · rw [kinds_stored, unpacked]
      by_cases here : value = other
      · subst here
        rw [if_pos rfl, dropLast_concat]
        exact remembers.same
      · rw [if_neg here, append_nil]
        exact closing.early other

theorem closing_start (starts : system.Starts) : Closing system := by
  obtain ⟨tokens, _, _, _, _, _, _, rows⟩ := starts
  refine ⟨fun value token found => ?_, fun value first member => ?_⟩
  · rw [tokens] at found
    cases found
  · rw [System.kinds, rows] at member
    cases member

theorem exists_replicate
    (early : ∀ first ∈ kinds.dropLast, ∀ second ∈ kinds.dropLast, first = second) :
    ∃ kind count, kinds = List.replicate count kind ∨ kinds = List.replicate count kind ++ [!kind] := by
  rcases eq_nil_or_concat kinds with rfl | ⟨before, last, rfl⟩
  · exact ⟨true, 0, Or.inl rfl⟩
  · rw [concat_eq_append] at early ⊢
    rw [dropLast_concat] at early
    cases before with
    | nil => exact ⟨last, 1, Or.inl rfl⟩
    | cons kind before =>
      have whole : kind :: before = List.replicate (before.length + 1) kind :=
        eq_replicate_of_mem fun other member => early other member kind mem_cons_self
      rw [whole]
      by_cases same : last = kind
      · exact ⟨kind, before.length + 2, Or.inl (same ▸ replicate_succ'.symm)⟩
      · exact ⟨kind, before.length + 1, Or.inr (by rw [Bool.eq_not_of_ne same])⟩

end Closings

section Runs

variable {C A : Type} [DecidableEq C] [DecidableEq A] {order : C → ByteOrder} {width : C → Width}
  {start system next : System C A}

theorem readRequest_message {head : Bytes} {token : Nat} (headed : Headed head) {data : Bytes}
    (same : letter '4' :: data = head ++ word64 token) (long : requestSize ≤ data.length) :
    (readRequest data long).token = word64 token := by
  obtain ⟨fields, size, rfl⟩ := headed
  have tail : data = fields ++ word64 token := (cons_eq_cons.mp same).2
  have behind : (fields ++ word64 token).drop 10 = word64 token := drop_left' size
  change (data.drop 10).take 8 = word64 token
  rw [tail, behind]
  rfl

theorem Credited.step (credited : Credited system) (stepped : Step order width system next) :
    Credited next := by
  cases stepped with
  | check config now due clients picked valid fresh =>
    exact credited.asked (check_asking credited.round) valid.tokens fresh
  | burst round clients picked running valid fresh =>
    exact credited.asked (doSend_asking (credited.round round running)) valid.tokens fresh
  | cleanup batch => exact credited.cleanup batch
  | arrive now dgram addr => exact credited.arrived (datagramReceived_cases rfl)
  | message client data calls pending =>
    refine @Credited.handled C A system _ credited client (order client) (width client)
      (.message data calls) _ _ trivial ?_ (communicate_handled rfl)
    rintro request ⟨data, calls, long, same, rfl⟩
    obtain ⟨rfl, rfl⟩ := Event.message.inj same
    obtain ⟨head, token, headed, known, whole⟩ := credited.messages _ pending
    exact ⟨token, readRequest_message headed whole long, known⟩
  | packet client memory info calls result genuine returned =>
    refine @Credited.handled C A system _ credited client (order client) (width client)
      (.packet memory info calls) _ _ genuine ?_ (received_handled returned)
    rintro request ⟨data, calls, long, same, _⟩
    cases same

theorem credited_run (starts : start.Starts)
    (reached : Relation.ReflTransGen (Step order width) start system) : Credited system := by
  induction reached with
  | refl => exact credited_start starts
  | tail _ stepped ih => exact ih.step stepped

/-- Clients and addresses are numbers here. -/
def quiet : System Nat Nat := ⟨⟨fun _ => none, 0, none, []⟩, fun _ => quietUser, [], [], [], []⟩

theorem quiet_starts : quiet.Starts :=
  ⟨fun _ => rfl, rfl, rfl, fun _ => rfl, rfl, rfl, rfl, rfl⟩

def oneConfig : Config Nat := ⟨0, word32 1, word32 2, 53, by decide⟩

/-- The server asks one client, the client answers, and its datagram arrives. -/
def oneAsked : System Nat Nat := quiet.asked [(3, 7)] (check quiet.plugin oneConfig 0 true {3} [(3, 7)])

def oneAnswered : System Nat Nat :=
  oneAsked.handled 3 (communicate (oneAsked.users 3) (oneConfig.head ++ word64 7) ⟨true, true⟩)

def oneStored : System Nat Nat :=
  oneAnswered.arrived (packetData (word64 7) false)
    (datagramReceived oneAnswered.plugin 1 (packetData (word64 7) false) 5)

theorem oneStored_reached : Relation.ReflTransGen
    (Step (fun _ => ByteOrder.big) fun _ => Width.bits64) quiet oneStored := by
  have asks : Step (fun _ => ByteOrder.big) (fun _ => Width.bits64) quiet oneAsked :=
    .check oneConfig 0 true {3} [(3, 7)] ⟨by decide, by decide, by decide, by decide⟩
      (nodup_singleton 7)
  have answers : Step (fun _ => ByteOrder.big) (fun _ => Width.bits64) oneAsked oneAnswered :=
    .message 3 _ ⟨true, true⟩ (by decide)
  have arrives : Step (fun _ => ByteOrder.big) (fun _ => Width.bits64) oneAnswered oneStored :=
    .arrive 1 _ 5
  exact ((Relation.ReflTransGen.single asks).tail answers).tail arrives

/-- Whatever else arrives at the server, a packet of a client is stored for this client, with the
kind that it has. -/
theorem rows_credited (starts : start.Starts)
    (reached : Relation.ReflTransGen (Step order width) start system) {row : Row C A}
    {dgram : Bytes} {client : C} {output : Output} (stored : (row, dgram) ∈ system.rows)
    (sent : (client, output) ∈ system.sent) (carries : output.Carries dgram) :
    row.client = client ∧ row.spoofed = output.spoofed := by
  have credited := credited_run starts reached
  obtain ⟨value, unpacked, owner⟩ := credited.rows _ stored
  obtain ⟨token, bears, sender⟩ := credited.sent _ sent
  rw [bears dgram carries, unpack_packetData rfl, bigEndian_word64 (credited.small _ sender)] at unpacked
  obtain ⟨rfl, kind⟩ := Prod.mk.inj (Prod.mk.inj unpacked).2
  have same := inj_on_of_nodup_map credited.distinct owner sender rfl
  exact ⟨(Prod.mk.inj same).1, kind.symm⟩

theorem Closing.step (closing : Closing system) (credited : Credited system)
    (stepped : Step order width system next) : Closing next := by
  cases stepped with
  | check config now due clients picked valid fresh =>
    exact closing.asked credited (check_asking credited.round) fresh
  | burst round clients picked running valid fresh =>
    exact closing.asked credited (doSend_asking (credited.round round running)) fresh
  | cleanup batch =>
    refine ⟨fun value token found => ?_, closing.early⟩
    simp only [Spoof.cleanup] at found
    split at found
    · cases found
    · exact closing.opened value token found
  | arrive now dgram addr => exact closing.arrived (datagramReceived_cases rfl)
  | message client data calls => exact ⟨closing.opened, closing.early⟩
  | packet client memory info calls result => exact ⟨closing.opened, closing.early⟩

/-- The row of the datagram names the client that was asked. -/
theorem rows_credited_one : (3 : Nat) = 3 ∧ false = Output.spoofed (.datagram (word32 2) (word16 53)
    (packetData (word64 7) false)) :=
  @rows_credited Nat Nat _ _ (fun _ => .big) (fun _ => .bits64) quiet oneStored quiet_starts
    oneStored_reached ⟨3, 0, false, true, 1, 5⟩ (packetData (word64 7) false) 3
    (.datagram (word32 2) (word16 53) (packetData (word64 7) false)) (by decide +kernel)
    (by decide +kernel) rfl

/-- While a token is in the table, the server waits for the kinds that are not stored yet. All rows of
a token but the last have the same kind, so nothing is stored after both kinds were. -/
theorem rows_close (starts : start.Starts)
    (reached : Relation.ReflTransGen (Step order width) start system) (value : Nat) :
    (∀ token, system.plugin.tokens value = some token → Remembers (system.kinds value) token) ∧
      ∃ kind count, system.kinds value = List.replicate count kind ∨
        system.kinds value = List.replicate count kind ++ [!kind] := by
  have closing : Closing system := by
    induction reached with
    | refl => exact closing_start starts
    | tail reached stepped ih => exact ih.step (credited_run starts reached) stepped
  exact ⟨closing.opened value, exists_replicate (closing.early value)⟩

theorem rows_close_one :
    (∀ token, oneStored.plugin.tokens 7 = some token → Remembers (oneStored.kinds 7) token) ∧
      ∃ kind count, oneStored.kinds 7 = List.replicate count kind ∨
        oneStored.kinds 7 = List.replicate count kind ++ [!kind] :=
  rows_close quiet_starts oneStored_reached 7

end Runs

end Ucollect.Spoof
