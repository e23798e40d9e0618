import Ucollect.Proof.Packet.Fields

namespace Ucollect.Core

/-- The caller of a nested call fills in these fields. -/
def PacketInfo.given (packet : PacketInfo) : PacketInfo :=
  { PacketInfo.zero with
    data := packet.data
    length := packet.length
    interface := packet.interface
    direction := packet.direction
    timestamp := packet.timestamp }

/-- A truncated UDP header hides its ports. -/
def IpHeader.Truncated (header : IpHeader) (length : Nat) : Prop :=
  header.protocol = 17 ∧ header.length ≤ length ∧ length < header.length + udpLength

instance (header : IpHeader) (length : Nat) : Decidable (header.Truncated length) := by
  unfold IpHeader.Truncated
  infer_instance

/-- A call on a packet of this length at the end of the capture stores every field. -/
inductive Overwrites (capture : Capture) : Nat → Prop where
  | innermost {length : Nat} {header : IpHeader}
      (found : ipHeader capture.byte (capture.length - length) length = some header)
      (last : ¬ header.Encapsulates) (whole : ¬ header.Truncated length) :
      Overwrites capture length
  | repeats {length : Nat} {header : IpHeader}
      (found : ipHeader capture.byte (capture.length - length) length = some header)
      (encapsulates : header.Encapsulates) (empty : header.length = 0) : Overwrites capture length
  | encapsulates {length : Nat} {header : IpHeader}
      (found : ipHeader capture.byte (capture.length - length) length = some header)
      (encapsulates : header.Encapsulates) (fits : header.length ≤ length)
      (inner : Overwrites capture (length - header.length)) : Overwrites capture length

/-- The packet that a packet of this length encapsulates stores every field. -/
def InsideOverwrites (capture : Capture) (length : Nat) : Prop :=
  ∀ header, ipHeader capture.byte (capture.length - length) length = some header →
    header.Encapsulates → header.length = 0 ∨
      header.length ≤ length ∧ Overwrites capture (length - header.length)

variable {length : Nat}

/-- The fields of an IP header are captured bytes. -/
theorem AgreeBelow.ipHeader {bound : Nat} {first second : PacketMemory}
    (agree : AgreeBelow bound first second) {data : Nat} (inside : data + length ≤ bound) :
    ipHeader first data length = ipHeader second data length := by
  by_cases short : length < iphdrSize
  · simp only [Core.ipHeader, short, if_true]
  · have long : 20 ≤ length := Nat.le_of_not_lt short
    have version : ipVersion first data = ipVersion second data := by
      rw [ipVersion, ipVersion, agree data (by omega)]
    have ihl : ipIhl first data = ipIhl second data := by
      rw [ipIhl, ipIhl, agree data (by omega)]
    rw [Core.ipHeader, Core.ipHeader, version, ihl, agree (data + 6) (by omega),
      agree (data + 9) (by omega)]

variable {memory : PacketMemory} {header : IpHeader}

/-- A complete IP header takes twenty bytes and claims sixty at most. -/
theorem ipHeader_bounds {data : Nat} (found : ipHeader memory data length = some header) :
    20 ≤ length ∧ header.length ≤ 60 := by
  have ihl : ipIhl memory data < 16 := Nat.mod_lt _ (by decide)
  simp only [ipHeader, iphdrSize, headerSizeUnit, ip6HdrSize] at found
  grind

variable {width : Width}

/-- An endless call returns with no budget. -/
theorem repeats_never (budget : Nat) (pool : Nat → PacketInfo) (packet : PacketInfo)
    (fits : packet.length < width.modulus)
    (found : ipHeader memory packet.data packet.length = some header)
    (encapsulates : header.Encapsulates) (empty : header.length = 0) :
    (ucParsePacket width memory budget pool packet dltRaw).result = none := by
  induction budget generalizing pool packet with
  | zero => rfl
  | succ budget ih =>
    have same : width.sub packet.length 0 = packet.length := by
      rw [Width.sub, Nat.sub_zero, Nat.add_mod_right, Nat.mod_eq_of_lt fits]
    have again : (ucParsePacket width memory budget (fun index => pool (index + 1))
        (inside width header packet (pool 0)) dltRaw).result = none := by
      apply ih
      · simp [inside, empty, same, fits]
      · simp [inside, empty, same, found]
    rw [ucParsePacket_result, found]
    simp [encapsulates, again]

/-- Only a truncated UDP header looks at the ports that the structure held before. -/
theorem content_stored {width : Width} {memory : PacketMemory} {header : IpHeader}
    {data length : Nat} (whole : ¬ header.Truncated length) (small : header.length ≤ 60)
    (fits : length < 2 ^ 32) (first second : Ends Nat) :
    content width memory header data length first =
      content width memory header data length second := by
  by_cases udp : header.protocol = 17
  · have room : ¬ width.sub length header.length < udpLength := by
      by_cases order : header.length ≤ length
      · have behind : ¬ length < header.length + udpLength := fun short => whole ⟨udp, order, short⟩
        rw [width.sub_of_le order fits]
        omega
      · have wide : 2 ^ 32 ≤ width.modulus := by cases width <;> decide
        rw [width.sub_of_lt (Nat.lt_of_not_le order)]
        simp only [udpLength]
        omega
    simp [content, udp, room]
  · simp [content, udp]

/-- Nothing of the structure is left in a packet that stores every field. -/
theorem headed_given {packet : PacketInfo} (whole : ¬ header.Truncated packet.length)
    (small : header.length ≤ 60) (fits : packet.length < 2 ^ 32) (next : Option PacketInfo) :
    headed width memory header packet next = headed width memory header packet.given next := by
  have kept := @content_stored width memory header packet.data packet.length whole small fits
    packet.ports ⟨0, 0⟩
  simp only [headed, kept, PacketInfo.given, PacketInfo.zero]

/-- A header with a packet inside is not a truncated UDP header. -/
theorem IpHeader.Encapsulates.whole (encapsulates : header.Encapsulates) (length : Nat) :
    ¬ header.Truncated length := by
  simp only [IpHeader.Encapsulates] at encapsulates
  simp only [IpHeader.Truncated]
  omega

variable {capture : Capture}

/-- A call that stores every field depends only on what its caller filled in. -/
theorem Overwrites.given (width : Width) (starts : capture.Starts memory)
    (overwrites : Overwrites capture length) (room : length ≤ capture.length) (budget : Nat)
    (pool : Nat → PacketInfo) (packet : PacketInfo) (start : packet.data = capture.length - length)
    (ends : packet.length = length) :
    (ucParsePacket width memory budget pool packet dltRaw).result =
      (ucParsePacket width memory budget (fun _ => .zero) packet.given dltRaw).result := by
  have small := capture.fits
  have captured : capture.bytes.length = capture.length := rfl
  have wide : 2 ^ 32 ≤ width.modulus := by cases width <;> decide
  have read (length : Nat) (room : length ≤ capture.length) :
      ipHeader memory (capture.length - length) length =
        ipHeader capture.byte (capture.length - length) length :=
    starts.agree.ipHeader (by omega)
  induction overwrites generalizing budget pool packet with
  | @innermost length header found last whole =>
    cases budget with
    | zero => rfl
    | succ budget =>
      have bounds := ipHeader_bounds found
      have same : ipHeader memory packet.data packet.length = some header := by
        rw [start, ends, read length room, found]
      have given : ipHeader memory packet.given.data packet.given.length = some header := same
      rw [ucParsePacket_result, ucParsePacket_result, same, given]
      simp only [last, if_false]
      rw [headed_given (ends ▸ whole) bounds.2 (by omega)]
  | @repeats length header found encapsulates empty =>
    have same : ipHeader memory packet.data packet.length = some header := by
      rw [start, ends, read length room, found]
    rw [repeats_never budget pool packet (by omega) same encapsulates empty]
    exact (repeats_never budget _ packet.given (show packet.length < _ by omega) same
      encapsulates empty).symm
  | @encapsulates length header found encapsulates fits inner ih =>
    cases budget with
    | zero => rfl
    | succ budget =>
      have bounds := ipHeader_bounds found
      have same : ipHeader memory packet.data packet.length = some header := by
        rw [start, ends, read length room, found]
      have given : ipHeader memory packet.given.data packet.given.length = some header := same
      have rest : width.sub packet.length header.length = length - header.length := by
        rw [ends, width.sub_of_le fits (by omega)]
      have behind : packet.data + header.length =
          capture.length - (length - header.length) := by omega
      rw [ucParsePacket_result, ucParsePacket_result, same, given]
      simp only [encapsulates, if_true]
      rw [ih (by omega) budget _ _ behind rest,
        ih (by omega) budget _ (inside width header packet.given .zero) behind rest]
      congr 1
      funext next
      exact headed_given (encapsulates.whole _) bounds.2 (by omega) _

/-- A call whose nested packet stores every field does not depend on the pool. -/
theorem InsideOverwrites.same (width : Width) (starts : capture.Starts memory)
    (overwrites : InsideOverwrites capture length) (room : length ≤ capture.length) (budget : Nat)
    (first second : Nat → PacketInfo) (packet : PacketInfo)
    (start : packet.data = capture.length - length) (ends : packet.length = length) :
    (ucParsePacket width memory budget first packet dltRaw).result =
      (ucParsePacket width memory budget second packet dltRaw).result := by
  have small := capture.fits
  have captured : capture.bytes.length = capture.length := rfl
  have wide : 2 ^ 32 ≤ width.modulus := by cases width <;> decide
  have read : ipHeader memory packet.data packet.length =
      ipHeader capture.byte (capture.length - length) length := by
    rw [start, ends]
    exact starts.agree.ipHeader (by omega)
  cases budget with
  | zero => rfl
  | succ budget =>
    rw [ucParsePacket_result, ucParsePacket_result]
    cases found : ipHeader memory packet.data packet.length with
    | none => rfl
    | some header =>
      by_cases encapsulates : header.Encapsulates
      · rcases overwrites header (read ▸ found) encapsulates with empty | ⟨fits, inner⟩
        · have never (pool : Nat → PacketInfo) :
              (ucParsePacket width memory (budget + 1) pool packet dltRaw).result = none :=
            repeats_never _ pool packet (by omega) found encapsulates empty
          have first := never first
          have second := never second
          rw [ucParsePacket_result, found] at first second
          exact first.trans second.symm
        · have rest : width.sub packet.length header.length = length - header.length := by
            rw [ends, width.sub_of_le fits (by omega)]
          have behind : packet.data + header.length =
              capture.length - (length - header.length) := by omega
          simp only [encapsulates, if_true]
          rw [inner.given width starts (by omega) budget _ _ behind rest,
            inner.given width starts (by omega) budget _
              (inside width header packet (second 0)) behind rest]
          rfl
      · simp only [encapsulates, if_false]

/-- A structure of this kind was in use before. -/
def used : PacketInfo := { PacketInfo.zero with hdrLength := 1, ports := ⟨1, 1⟩ }

/-- A call on this part of the memory shows what the structures held before. -/
def Remembers (width : Width) (memory : PacketMemory) (data length : Nat) : Prop :=
  ∃ budget, ∀ first second : PacketInfo, first.data = data → first.length = length →
    second.data = data → second.length = length → first.hdrLength ≠ second.hdrLength →
    first.ports ≠ second.ports → ∃ clean dirty,
      (ucParsePacket width memory budget (fun _ => .zero) first dltRaw).result = some clean ∧
      (ucParsePacket width memory budget (fun _ => used) second dltRaw).result = some dirty ∧
      clean ≠ dirty

theorem remembers_of_none {data : Nat} (none : ipHeader memory data length = none) :
    Remembers width memory data length := by
  refine ⟨1, fun first second start ends start' ends' headers ports =>
    ⟨headerless memory first, headerless memory second, ?_, ?_, ?_⟩⟩
  · rw [ucParsePacket_result, start, ends, none]
  · rw [ucParsePacket_result, start', ends', none]
  · intro same
    exact headers (congrArg PacketInfo.hdrLength same :)

theorem remembers_of_truncated {data : Nat} (found : ipHeader memory data length = some header)
    (truncated : header.Truncated length) (small : length < 2 ^ 32) :
    Remembers width memory data length := by
  obtain ⟨udp, fits, short⟩ := truncated
  have last : ¬ header.Encapsulates := by simp [IpHeader.Encapsulates, udp]
  have rest : width.sub length header.length < udpLength := by
    rw [width.sub_of_le fits small]
    omega
  refine ⟨1, fun first second start ends start' ends' headers ports =>
    ⟨headed width memory header first none, headed width memory header second none, ?_, ?_, ?_⟩⟩
  · rw [ucParsePacket_result, start, ends, found]
    simp [last]
  · rw [ucParsePacket_result, start', ends', found]
    simp [last]
  · intro same
    have kept := congrArg PacketInfo.ports same
    simp only [headed, ends, ends', content, udp, rest] at kept
    exact ports kept

/-- Two structures of the pool give two packets inside. -/
theorem Remembers.inside {data : Nat}
    (remembers : Remembers width memory (data + header.length) (width.sub length header.length))
    (found : ipHeader memory data length = some header) (encapsulates : header.Encapsulates) :
    ∃ budget, ∀ first second : PacketInfo, first.data = data → first.length = length →
      second.data = data → second.length = length → ∃ clean dirty,
        (ucParsePacket width memory budget (fun _ => .zero) first dltRaw).result = some clean ∧
        (ucParsePacket width memory budget (fun _ => used) second dltRaw).result = some dirty ∧
        clean ≠ dirty := by
  obtain ⟨budget, differ⟩ := remembers
  refine ⟨budget + 1, fun first second start ends start' ends' => ?_⟩
  obtain ⟨clean, dirty, inner, inner', different⟩ := differ
    (Core.inside width header first .zero) (Core.inside width header second used)
    (by simp [Core.inside, start]) (by simp [Core.inside, ends])
    (by simp [Core.inside, start']) (by simp [Core.inside, ends'])
    (show 0 ≠ 1 by decide) (show (⟨0, 0⟩ : Ends Nat) ≠ ⟨1, 1⟩ by decide)
  refine ⟨headed width memory header first (some clean),
    headed width memory header second (some dirty), ?_, ?_, ?_⟩
  · rw [ucParsePacket_result, start, ends, found]
    simp [encapsulates, inner]
  · rw [ucParsePacket_result, start', ends', found]
    simp [encapsulates, inner']
  · intro same
    have kept := congrArg PacketInfo.next same
    simp only [headed, Option.some.injEq] at kept
    exact different kept

theorem Remembers.outer {data : Nat}
    (remembers : Remembers width memory (data + header.length) (width.sub length header.length))
    (found : ipHeader memory data length = some header) (encapsulates : header.Encapsulates) :
    Remembers width memory data length := by
  obtain ⟨budget, differ⟩ := remembers.inside found encapsulates
  exact ⟨budget, fun first second start ends start' ends' _ _ =>
    differ first second start ends start' ends'⟩

/-- There is no IP header in the zeros behind the capture. -/
theorem ipHeader_behind {data : Nat} (behind : capture.length ≤ data) (length : Nat) :
    ipHeader capture.byte data length = none := by
  have zero : capture.byte data = 0 := by
    simp [Capture.byte, List.getElem?_eq_none behind]
  simp [ipHeader, ipVersion, zero]

/-- A packet behind a header that is too long starts behind the capture. -/
theorem remembers_of_long (width : Width) (room : length ≤ capture.length)
    (long : length < header.length) :
    Remembers width capture.byte (capture.length - length + header.length)
      (width.sub length header.length) :=
  remembers_of_none (ipHeader_behind (by omega) _)

theorem remembers_of_not_overwrites (width : Width) (capture : Capture) (length : Nat)
    (room : length ≤ capture.length) (wrong : ¬ Overwrites capture length) :
    Remembers width capture.byte (capture.length - length) length := by
  induction length using Nat.strong_induction_on with
  | _ length ih =>
    have small := capture.fits
    have captured : capture.bytes.length = capture.length := rfl
    cases found : ipHeader capture.byte (capture.length - length) length with
    | none => exact remembers_of_none found
    | some header =>
      by_cases encapsulates : header.Encapsulates
      · have consumes : header.length ≠ 0 := fun empty =>
          wrong (.repeats found encapsulates empty)
        refine Remembers.outer ?_ found encapsulates
        by_cases fits : header.length ≤ length
        · have bounds := ipHeader_bounds found
          have inner := ih (length - header.length) (by omega) (by omega)
            fun overwrites => wrong (.encapsulates found encapsulates fits overwrites)
          rw [width.sub_of_le fits (by omega), show capture.length - length + header.length =
            capture.length - (length - header.length) by omega]
          exact inner
        · exact remembers_of_long width room (Nat.lt_of_not_le fits)
      · have truncated : header.Truncated length := by
          by_contra whole
          exact wrong (.innermost found encapsulates whole)
        exact remembers_of_truncated found truncated (by omega)

/-- A packet that shows what the pool held is found in the memory of the capture itself. -/
theorem differs_of_not_insideOverwrites (width : Width) (capture : Capture) (length : Nat)
    (room : length ≤ capture.length) (wrong : ¬ InsideOverwrites capture length) :
    ∃ budget, ∀ packet : PacketInfo, packet.data = capture.length - length →
      packet.length = length →
      (ucParsePacket width capture.byte budget (fun _ => .zero) packet dltRaw).result ≠
        (ucParsePacket width capture.byte budget (fun _ => used) packet dltRaw).result := by
  have small := capture.fits
  have captured : capture.bytes.length = capture.length := rfl
  simp only [InsideOverwrites, not_forall, not_or, not_and] at wrong
  obtain ⟨header, found, encapsulates, consumes, deeper⟩ := wrong
  have inner : Remembers width capture.byte (capture.length - length + header.length)
      (width.sub length header.length) := by
    by_cases fits : header.length ≤ length
    · rw [width.sub_of_le fits (by omega), show capture.length - length + header.length =
        capture.length - (length - header.length) by omega]
      exact remembers_of_not_overwrites width capture _ (by omega) (deeper fits)
    · exact remembers_of_long width room (Nat.lt_of_not_le fits)
  obtain ⟨budget, differ⟩ := inner.inside found encapsulates
  refine ⟨budget, fun packet start ends => ?_⟩
  obtain ⟨clean, dirty, first, second, different⟩ := differ packet packet start ends start ends
  simp [first, second, different]

/-- The parsed packets do not depend on the memory of the pool exactly when every encapsulated
packet has a complete IP header and no truncated UDP header. -/
theorem ucParsePacket_recycled_iff (width : Width) (capture : Capture) (interface : String)
    (direction : Direction) (timestamp : Nat) (datalink : Int) :
    (∀ (memory : PacketMemory), capture.Starts memory →
      ∀ (budget : Nat) (first second : Nat → PacketInfo),
        (ucParsePacket width memory budget first
          (capture.packet interface direction timestamp) datalink).result =
        (ucParsePacket width memory budget second
          (capture.packet interface direction timestamp) datalink).result) ↔
    ∀ length, payload capture datalink = some length → InsideOverwrites capture length := by
  constructor
  · intro same length found
    by_contra wrong
    have starts : capture.Starts capture.byte := fun _ _ => rfl
    obtain ⟨budget, differ⟩ :=
      differs_of_not_insideOverwrites width capture length (payload_le found) wrong
    by_cases raw : datalink = dltRaw
    · obtain rfl : capture.length = length := by simpa [payload, raw] using found
      have equal := same capture.byte starts budget (fun _ => .zero) (fun _ => used)
      rw [raw] at equal
      exact differ _ (by simp [Capture.packet, PacketInfo.zero]) rfl equal
    · obtain ⟨frame, parsed, call⟩ :=
        ucParsePacket_frame width starts interface direction timestamp raw
      have equal := same capture.byte starts (budget + 1) (fun _ => .zero) (fun _ => used)
      simp only [call, found] at equal
      apply differ (payloadPacket (capture.packet interface direction timestamp) length) rfl rfl
      refine Option.map_injective (fun one two alike => ?_) equal
      simpa using congrArg PacketInfo.next alike
  · intro overwrites memory starts budget first second
    by_cases raw : datalink = dltRaw
    · rw [raw]
      exact (overwrites _ (by simp [payload, raw])).same width starts le_rfl budget first second _
        (by simp [Capture.packet, PacketInfo.zero]) rfl
    · obtain ⟨frame, parsed, call⟩ :=
        ucParsePacket_frame width starts interface direction timestamp raw
      cases budget with
      | zero => rfl
      | succ budget =>
        rw [call, call]
        cases found : payload capture datalink with
        | none => rfl
        | some length =>
          simp only
          rw [(overwrites length found).same width starts (payload_le found) budget _
            (fun index => second (index + 1)) _ rfl rfl]

/-- This IPv4 packet claims to carry an IPv4 packet of no bytes. -/
def hollow : Capture where
  bytes := [0x45, 0, 0, 0, 0, 0, 0, 0, 0, 4, 0, 0, 0, 0, 0, 0, 0, 0, 0, 0]
  fits := by decide

theorem ucParsePacket_recycles :
    hollow.Starts hollow.byte ∧
    ((ucParsePacket .bits64 hollow.byte 2 (fun _ => .zero)
      (hollow.packet "eth0" .incoming 0) dltRaw).result.bind PacketInfo.next).map
        PacketInfo.hdrLength = some 0 ∧
    ((ucParsePacket .bits64 hollow.byte 2 (fun _ => used)
      (hollow.packet "eth0" .incoming 0) dltRaw).result.bind PacketInfo.next).map
        PacketInfo.hdrLength = some 1 := by
  refine ⟨fun _ _ => rfl, by decide, by decide⟩

end Ucollect.Core
