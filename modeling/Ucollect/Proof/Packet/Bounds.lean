import Ucollect.Proof.Packet.Termination

namespace Ucollect.Core
open List

/-- Every IP packet has a first byte and every header ends inside the capture. -/
inductive StaysInside (capture : Capture) : Nat → Prop where
  | leaf {length : Nat}
      (carried : carries capture.byte (capture.length - length) length = .nothing)
      (first : 0 < length) : StaysInside capture length
  | transport {length header : Nat}
      (carried : carries capture.byte (capture.length - length) length = .transport header)
      (fits : header ≤ length) : StaysInside capture length
  | repeats {length : Nat}
      (carried : carries capture.byte (capture.length - length) length = .packet 0) :
      StaysInside capture length
  | encapsulates {length header : Nat}
      (carried : carries capture.byte (capture.length - length) length = .packet header)
      (fits : header ≤ length) (inner : StaysInside capture (length - header)) :
      StaysInside capture length

variable {bound : Nat}

theorem HeaderBytes.inside {packet : PacketInfo} {accesses : List Access}
    (header : HeaderBytes packet accesses) (first : 0 < packet.length)
    (fits : packet.data + packet.length ≤ bound) : ∀ access ∈ accesses, access.Inside bound := by
  intro access member
  obtain ⟨offset, rfl, near⟩ := header.2 access member
  exact (by omega : offset < bound)

theorem PortBytes.inside {start rest : Nat} {accesses : List Access}
    (ports : PortBytes start rest accesses) (fits : start + rest ≤ bound) :
    ∀ access ∈ accesses, access.Inside bound := by
  intro access member
  obtain ⟨offset, rfl, near⟩ := ports.2 access member
  exact (by omega : offset < bound)

variable {memory : PacketMemory} {length : Nat}

/-- A call on a packet that stays inside the capture reads only captured bytes. -/
theorem StaysInside.inside {capture : Capture} (width : Width) (starts : capture.Starts memory)
    (budget : Nat) (stays : StaysInside capture length) (fits : length ≤ capture.length)
    (pool : Nat → PacketInfo) (packet : PacketInfo) (start : packet.data = capture.length - length)
    (whole : packet.length = length) :
    ∀ access ∈ (ucParsePacket width memory budget pool packet dltRaw).accesses,
      access.Inside capture.length := by
  induction budget generalizing length pool packet with
  | zero => simp [ucParsePacket]
  | succ budget ih =>
    have small := capture.fits
    have captured : capture.bytes.length = capture.length := rfl
    have same : carries memory packet.data packet.length =
        carries capture.byte (capture.length - length) length := by
      rw [start, whole, starts.agree.carries (by omega)]
    have first : 0 < packet.length := by
      cases stays with
      | leaf _ first => omega
      | transport carried => have := carries_length carried (by simp); omega
      | repeats carried => have := carries_length carried (by simp); omega
      | encapsulates carried => have := carries_length carried (by simp); omega
    have call := ucParsePacket_rawCall width memory budget pool packet
    generalize ucParsePacket width memory (budget + 1) pool packet dltRaw = parsed at call
    cases call with
    | leaf _ header => exact header.inside first (by omega)
    | @transport own ports result header carried headers below =>
      have ends : header ≤ length := by
        rw [same] at carried
        cases stays with
        | leaf other => simp [other] at carried
        | transport other fits => simp_all
        | repeats other => simp [other] at carried
        | encapsulates other => simp [other] at carried
      rw [whole, width.sub_of_le ends (by omega)] at below
      intro access member
      rcases mem_append.mp member with early | late
      · exact headers.inside first (by omega) access early
      · exact below.inside (by omega) access late
    | @nested own next header finish carried headers begins rest =>
      have inner : header ≤ length ∧ StaysInside capture (length - header) := by
        rw [same] at carried
        cases stays with
        | leaf other => simp [other] at carried
        | transport other => simp [other] at carried
        | repeats other =>
          obtain rfl : header = 0 := by simpa [other] using carried.symm
          exact ⟨Nat.zero_le _, .repeats other⟩
        | encapsulates other fits inner => simp_all
      rw [whole, width.sub_of_le inner.1 (by omega)] at rest
      have within : (Access.nested next.data next.length).Inside capture.length :=
        (by omega : next.data + next.length ≤ capture.length)
      intro access member
      rcases mem_append.mp member with early | late
      · exact headers.inside first (by omega) access early
      · rcases mem_cons.mp late with rfl | later
        · exact within
        · exact ih inner.2 (by omega) _ next (by omega) rest access later

/-- Some access of a call on this part of the memory is not inside the capture. -/
def Escapes (width : Width) (bound : Nat) (memory : PacketMemory) (data length budget : Nat) :
    Prop :=
  ∀ (pool : Nat → PacketInfo) (packet : PacketInfo), packet.data = data →
    packet.length = length →
    ∃ access ∈ (ucParsePacket width memory budget pool packet dltRaw).accesses,
      ¬ access.Inside bound

/-- Every call reads the first byte of its packet. -/
theorem escapes_of_empty (width : Width) (memory : PacketMemory) (bound : Nat) :
    Escapes width bound memory bound 0 1 := by
  intro pool packet start whole
  have call := ucParsePacket_rawCall width memory 0 pool packet
  generalize ucParsePacket width memory 1 pool packet dltRaw = parsed at call
  have outside : ¬ (Access.byte packet.data).Inside bound := by
    simp [Access.Inside, start]
  cases call with
  | leaf _ header => exact ⟨_, header.1, outside⟩
  | transport _ header => exact ⟨_, mem_append_left _ header.1, outside⟩
  | nested _ header => exact ⟨_, mem_append_left _ header.1, outside⟩

variable {width : Width} {header : Nat}

/-- The length behind a header that is too long wraps around, so the ports are read. -/
theorem escapes_of_transport (fits : length ≤ bound) (small : header ≤ 60)
    (carried : carries memory (bound - length) length = .transport header)
    (behind : length < header) : Escapes width bound memory (bound - length) length 1 := by
  intro pool packet start whole
  rw [← start, ← whole] at carried
  have wide : 2 ^ 32 ≤ width.modulus := by cases width <;> decide
  have call := ucParsePacket_rawCall width memory 0 pool packet
  generalize ucParsePacket width memory 1 pool packet dltRaw = parsed at call
  cases call with
  | leaf nothing => simp [nothing] at carried
  | @transport _ _ _ found other _ below =>
    obtain rfl : header = found := by simpa [other] using carried.symm
    rw [whole, width.sub_of_lt behind] at below
    have long : tcpPortsSize ≤ length + width.modulus - header := by
      simp only [tcpPortsSize]
      omega
    refine ⟨_, mem_append_right _ (below.1 long), ?_⟩
    exact (by omega : ¬ packet.data + header < bound)
  | nested other => simp [other] at carried

/-- The packet behind a header that is too long starts behind the capture. -/
theorem escapes_of_nested (fits : length ≤ bound)
    (carried : carries memory (bound - length) length = .packet header) (behind : length < header) :
    Escapes width bound memory (bound - length) length 1 := by
  intro pool packet start whole
  rw [← start, ← whole] at carried
  have call := ucParsePacket_rawCall width memory 0 pool packet
  generalize ucParsePacket width memory 1 pool packet dltRaw = parsed at call
  cases call with
  | leaf nothing => simp [nothing] at carried
  | transport other => simp [other] at carried
  | @nested _ next _ _ other _ begins rest =>
    obtain rfl : _ = header := by simpa [other] using carried
    refine ⟨_, mem_append_right _ mem_cons_self, ?_⟩
    exact (by omega : ¬ next.data + next.length ≤ bound)

theorem Escapes.outer {data budget : Nat} (carried : carries memory data length = .packet header)
    (inner : Escapes width bound memory (data + header) (width.sub length header) budget) :
    Escapes width bound memory data length (budget + 1) := by
  intro pool packet start whole
  rw [← start, ← whole] at carried inner
  have call := ucParsePacket_rawCall width memory budget pool packet
  generalize ucParsePacket width memory (budget + 1) pool packet dltRaw = parsed at call
  cases call with
  | leaf nothing => simp [nothing] at carried
  | transport other => simp [other] at carried
  | nested other _ begins rest =>
    obtain rfl : _ = header := by simpa [other] using carried
    obtain ⟨access, member, outside⟩ := inner _ _ begins rest
    exact ⟨access, mem_append_right _ (mem_cons_of_mem _ member), outside⟩

theorem exists_escape (width : Width) (capture : Capture) (length : Nat)
    (fits : length ≤ capture.length) (wrong : ¬ StaysInside capture length) :
    ∃ budget, Escapes width capture.length capture.byte (capture.length - length) length
      budget := by
  induction length using Nat.strong_induction_on with
  | _ length ih =>
    have small := capture.fits
    have captured : capture.bytes.length = capture.length := rfl
    cases carried : carries capture.byte (capture.length - length) length with
    | nothing =>
      obtain rfl : length = 0 := by
        by_contra positive
        exact wrong (.leaf carried (Nat.pos_of_ne_zero positive))
      exact ⟨1, escapes_of_empty width capture.byte capture.length⟩
    | transport header =>
      have behind : length < header := by
        by_contra order
        exact wrong (.transport carried (Nat.le_of_not_lt order))
      have bounded : header ≤ 60 := by
        simpa [carried, Carried.header] using carries_header_le capture.byte (capture.length - length) length
      exact ⟨1, escapes_of_transport fits bounded carried behind⟩
    | packet header =>
      by_cases ends : header ≤ length
      · have consumes : 0 < header := by
          by_contra empty
          obtain rfl : header = 0 := by omega
          exact wrong (.repeats carried)
        have long := carries_length carried (by simp)
        have deeper : ¬ StaysInside capture (length - header) := by
          intro stays
          exact wrong (.encapsulates carried ends stays)
        obtain ⟨budget, inner⟩ := ih (length - header) (by omega) (by omega) deeper
        refine ⟨budget + 1, .outer carried ?_⟩
        rw [width.sub_of_le ends (by omega), show capture.length - length + header =
          capture.length - (length - header) by omega]
        exact inner
      · exact ⟨1, escapes_of_nested fits carried (Nat.lt_of_not_le ends)⟩

/-- The parser stays inside exactly the captures whose headers all end inside. -/
theorem ucParsePacket_inside_iff (width : Width) (capture : Capture) (interface : String)
    (direction : Direction) (timestamp : Nat) (datalink : Int) :
    (∀ (memory : PacketMemory), capture.Starts memory →
      ∀ (pool : Nat → PacketInfo) (budget : Nat), ∀ access ∈ (ucParsePacket width memory budget
        pool (capture.packet interface direction timestamp) datalink).accesses,
        access.Inside capture.length) ↔
    ∀ length, payload capture datalink = some length → StaysInside capture length := by
  constructor
  · intro inside length found
    by_contra wrong
    have starts : capture.Starts capture.byte := fun _ _ => rfl
    obtain ⟨budget, escapes⟩ := exists_escape width capture length (payload_le found) wrong
    by_cases raw : datalink = dltRaw
    · obtain rfl : capture.length = length := by simpa [payload, raw] using found
      obtain ⟨access, member, outside⟩ := escapes (fun _ => .zero)
        (capture.packet interface direction timestamp)
        (by simp [Capture.packet, PacketInfo.zero]) rfl
      exact outside (inside capture.byte starts _ budget access (by rw [raw]; exact member))
    · have all := inside capture.byte starts (fun _ => .zero) (budget + 1)
      have call := ucParsePacket_linkCall width starts interface direction timestamp budget
        (fun _ => .zero) raw
      generalize ucParsePacket width capture.byte (budget + 1) _ _ datalink = parsed at call all
      cases call with
      | leaf none => simp [none] at found
      | nested some _ _ start rest =>
        obtain rfl : _ = length := by simpa [some] using found
        obtain ⟨access, member, outside⟩ := escapes _ _ start rest
        exact outside (all access (mem_append_right _ member))
  · intro stays memory starts pool budget access member
    by_cases raw : datalink = dltRaw
    · have whole : StaysInside capture capture.length := stays _ (by simp [payload, raw])
      rw [raw] at member
      exact whole.inside width starts budget le_rfl pool _
        (by simp [Capture.packet, PacketInfo.zero]) rfl access member
    · cases budget with
      | zero => simp [ucParsePacket] at member
      | succ budget =>
        have call := ucParsePacket_linkCall width starts interface direction timestamp budget
          pool raw
        generalize ucParsePacket width memory (budget + 1) pool _ datalink = parsed
          at call member
        cases call with
        | leaf _ own => exact own access member
        | nested some own fits start rest =>
          rcases mem_append.mp member with early | late
          · exact own access early
          · exact (stays _ some).inside width starts budget fits _ _ start rest access late

/-- This IPv4 packet claims a header of sixty bytes in front of an UDP header. -/
def longHeader : Capture where
  bytes := [0x4f, 0, 0, 0, 0, 0, 0, 0, 0, 17, 0, 0, 0, 0, 0, 0, 0, 0, 0, 0]
  fits := by decide

theorem ucParsePacket_reads_behind :
    longHeader.Starts longHeader.byte ∧ Access.byte 60 ∈ (ucParsePacket .bits64 longHeader.byte 1
      (fun _ => .zero) (longHeader.packet "eth0" .incoming 0) dltRaw).accesses ∧
      ¬ (Access.byte 60).Inside longHeader.length := by
  refine ⟨fun _ _ => rfl, by decide, ?_⟩
  exact (by decide : ¬ 60 < 20)

end Ucollect.Core
