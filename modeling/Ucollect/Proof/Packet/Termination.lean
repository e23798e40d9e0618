import Ucollect.Proof.Packet.Link

namespace Ucollect.Core
open Option

/-- Every encapsulating header takes at least one byte and ends inside the capture. -/
inductive NestsProperly (capture : Capture) : Nat → Prop where
  | innermost {length : Nat}
      (last : ∀ header, carries capture.byte (capture.length - length) length ≠ .packet header) :
      NestsProperly capture length
  | encapsulates {length header : Nat}
      (carried : carries capture.byte (capture.length - length) length = .packet header)
      (consumes : 0 < header) (fits : header ≤ length)
      (inner : NestsProperly capture (length - header)) : NestsProperly capture length

/-- No budget is large enough for a call on this part of the memory. -/
def Diverges (width : Width) (memory : PacketMemory) (data length : Nat) : Prop :=
  ∀ (budget : Nat) (pool : Nat → PacketInfo) (packet : PacketInfo), packet.data = data →
    packet.length = length → (ucParsePacket width memory budget pool packet dltRaw).result = none

/-- A content of an IP packet starts behind the header. -/
def Carried.header : Carried → Nat
  | .nothing => 0
  | .transport header => header
  | .packet header => header

/-- A header length counts units of four bytes in half a byte. -/
theorem carries_header_le (memory : PacketMemory) (data length : Nat) :
    (carries memory data length).header ≤ 60 := by
  have ihl : ipIhl memory data < 16 := Nat.mod_lt _ (by decide)
  have bound (protocol size : Nat) (small : size ≤ 60) :
      (carriedBy protocol size).header ≤ 60 := by
    unfold carriedBy
    split
    · exact small
    split
    · exact small
    · exact Nat.zero_le _
  unfold carries
  split
  · exact Nat.zero_le _
  split
  · exact bound _ _ (by simp only [headerSizeUnit]; omega)
  split
  · split
    · exact Nat.zero_le _
    · exact bound _ _ (by decide)
  · exact Nat.zero_le _

variable {length : Nat} {memory : PacketMemory}

/-- A packet that carries something has a complete header. -/
theorem carries_length {data : Nat} {content : Carried}
    (carried : carries memory data length = content) (something : content ≠ .nothing) :
    20 ≤ length := by
  by_contra short
  have tooShort : length < iphdrSize := Nat.lt_of_not_le short
  apply something
  rw [← carried, carries, if_pos tooShort]

/-- A call whose nested call never returns never returns. -/
theorem Diverges.outer {width : Width} {data header : Nat}
    (carried : carries memory data length = .packet header)
    (inner : Diverges width memory (data + header) (width.sub length header)) :
    Diverges width memory data length := by
  intro budget pool packet start whole
  cases budget with
  | zero => rfl
  | succ budget =>
    have call := ucParsePacket_rawCall width memory budget pool packet
    generalize ucParsePacket width memory (budget + 1) pool packet dltRaw = parsed at call
    rw [← start, ← whole] at carried inner
    cases call with
    | leaf nothing => simp [nothing] at carried
    | transport other => simp [other] at carried
    | nested other _ begins rest =>
      obtain rfl : _ = header := by simpa [other] using carried
      rw [inner budget _ _ begins rest]
      rfl

/-- A header of length zero makes the call repeat itself. -/
theorem diverges_of_empty_header {width : Width} {data : Nat}
    (carried : carries memory data length = .packet 0) (fits : length < width.modulus) :
    Diverges width memory data length := by
  intro budget
  induction budget with
  | zero => intros; rfl
  | succ budget ih =>
    intro pool packet start whole
    have call := ucParsePacket_rawCall width memory budget pool packet
    generalize ucParsePacket width memory (budget + 1) pool packet dltRaw = parsed at call
    rw [← start, ← whole] at carried
    cases call with
    | leaf nothing => simp [nothing] at carried
    | transport other => simp [other] at carried
    | nested other _ begins rest =>
      obtain rfl : _ = 0 := by simpa [other] using carried
      have same : width.sub packet.length 0 = packet.length := by
        rw [Width.sub, Nat.sub_zero, Nat.add_mod_right, Nat.mod_eq_of_lt (by omega)]
      rw [ih _ _ (begins.trans start) (rest.trans (same.trans whole))]
      rfl

/-- The memory behind the capture can hold a header of length zero. -/
def trapMemory (capture : Capture) (trap : Nat) : PacketMemory := fun offset =>
  if offset < capture.length then capture.byte offset else if offset = trap then 0x40 else 4

theorem trapMemory_starts (capture : Capture) (trap : Nat) :
    capture.Starts (trapMemory capture trap) := by
  intro offset inside
  rw [trapMemory, if_pos inside]

/-- A header that ends behind the capture lets the call run into a trap. -/
theorem trapMemory_diverges (width : Width) {capture : Capture} {trap : Nat}
    (behind : capture.length ≤ trap) (long : 20 ≤ length) (fits : length < width.modulus) :
    Diverges width (trapMemory capture trap) trap length := by
  apply diverges_of_empty_header _ fits
  have first : trapMemory capture trap trap = 0x40 := by
    rw [trapMemory, if_neg (by omega), if_pos rfl]
  have ninth : trapMemory capture trap (trap + 9) = 4 := by
    rw [trapMemory, if_neg (by omega), if_neg (by omega)]
  simp [carries, ipVersion, ipIhl, first, ninth, carriedBy, iphdrSize, Nat.not_lt.mpr long]

/-- Some memory makes the call on a wrongly nested packet run forever. -/
theorem exists_diverging (width : Width) (capture : Capture) (length : Nat)
    (fits : length ≤ capture.length) (wrong : ¬ NestsProperly capture length) :
    ∃ memory, capture.Starts memory ∧
      Diverges width memory (capture.length - length) length := by
  induction length using Nat.strong_induction_on with
  | _ length ih =>
    have wide : 2 ^ 32 ≤ width.modulus := by cases width <;> decide
    have small := capture.fits
    have captured : capture.bytes.length = capture.length := rfl
    have nested : ∃ header,
        carries capture.byte (capture.length - length) length = .packet header := by
      by_contra none
      exact wrong (.innermost fun header same => none ⟨header, same⟩)
    obtain ⟨header, carried⟩ := nested
    have long : 20 ≤ length := carries_length carried (by simp)
    have bounded : header ≤ 60 := by
      simpa [carried, Carried.header] using carries_header_le capture.byte (capture.length - length) length
    have elsewhere (memory : PacketMemory) (starts : capture.Starts memory) :
        carries memory (capture.length - length) length = .packet header := by
      rw [starts.agree.carries (by omega), carried]
    rcases Nat.eq_zero_or_pos header with empty | consumes
    · subst empty
      exact ⟨capture.byte, fun _ _ => rfl, diverges_of_empty_header carried (by omega)⟩
    · by_cases ends : header ≤ length
      · have deeper : ¬ NestsProperly capture (length - header) := by
          intro proper
          exact wrong (.encapsulates carried consumes ends proper)
        obtain ⟨memory, starts, inner⟩ := ih (length - header) (by omega) (by omega) deeper
        refine ⟨memory, starts, .outer (elsewhere memory starts) ?_⟩
        rw [width.sub_of_le ends (by omega),
          show capture.length - length + header = capture.length - (length - header) by omega]
        exact inner
      · let trap := capture.length - length + header
        have starts := trapMemory_starts capture trap
        refine ⟨_, starts, .outer (elsewhere _ starts) ?_⟩
        rw [width.sub_of_lt (Nat.lt_of_not_le ends)]
        exact trapMemory_diverges width (by omega) (by omega) (by omega)

/-- A properly nested packet needs a budget that only depends on the capture. -/
theorem NestsProperly.returns {capture : Capture} {length : Nat} (width : Width)
    (proper : NestsProperly capture length) (fits : length ≤ capture.length) :
    ∃ budget, ∀ (memory : PacketMemory), capture.Starts memory →
      ∀ (pool : Nat → PacketInfo) (packet : PacketInfo), packet.data = capture.length - length →
        packet.length = length →
        (ucParsePacket width memory budget pool packet dltRaw).result.isSome := by
  induction proper with
  | @innermost length last =>
    refine ⟨1, fun memory starts pool packet start whole => ?_⟩
    have same : carries memory packet.data packet.length =
        carries capture.byte (capture.length - length) length := by
      rw [start, whole, starts.agree.carries (by omega)]
    have call := ucParsePacket_rawCall width memory 0 pool packet
    generalize ucParsePacket width memory 1 pool packet dltRaw = parsed at call
    cases call with
    | leaf => rfl
    | transport => rfl
    | nested carried => exact absurd (same.symm.trans carried) (last _)
  | @encapsulates length header carried consumes ends proper ih =>
    obtain ⟨budget, inner⟩ := ih (by omega)
    refine ⟨budget + 1, fun memory starts pool packet start whole => ?_⟩
    have small := capture.fits
    have captured : capture.bytes.length = capture.length := rfl
    have same : carries memory packet.data packet.length = .packet header := by
      rw [start, whole, starts.agree.carries (by omega), carried]
    have call := ucParsePacket_rawCall width memory budget pool packet
    generalize ucParsePacket width memory (budget + 1) pool packet dltRaw = parsed at call
    cases call with
    | leaf => rfl
    | transport => rfl
    | nested other _ begins rest =>
      obtain rfl : _ = header := by simpa [same] using other.symm
      rw [whole, width.sub_of_le ends (by omega)] at rest
      rw [isSome_map]
      exact inner memory starts _ _ (by omega) rest

/-- The parser returns exactly on the captures whose encapsulating headers nest properly. -/
theorem ucParsePacket_returns_iff (width : Width) (capture : Capture) (interface : String)
    (direction : Direction) (timestamp : Nat) (datalink : Int) :
    (∀ (memory : PacketMemory), capture.Starts memory → ∀ (pool : Nat → PacketInfo),
      ∃ budget, (ucParsePacket width memory budget pool
        (capture.packet interface direction timestamp) datalink).result.isSome) ↔
    ∀ length, payload capture datalink = some length → NestsProperly capture length := by
  constructor
  · intro returns length found
    by_contra wrong
    by_cases raw : datalink = dltRaw
    · obtain rfl : capture.length = length := by simpa [payload, raw] using found
      obtain ⟨memory, starts, diverges⟩ := exists_diverging width capture _ le_rfl wrong
      obtain ⟨budget, returned⟩ := returns memory starts (fun _ => .zero)
      rw [raw, diverges budget _ _ (by simp [Capture.packet, PacketInfo.zero]) rfl] at returned
      simp at returned
    · have fits : length ≤ capture.length := payload_le found
      obtain ⟨memory, starts, diverges⟩ := exists_diverging width capture length fits wrong
      obtain ⟨budget, returned⟩ := returns memory starts (fun _ => .zero)
      cases budget with
      | zero => simp [ucParsePacket] at returned
      | succ budget =>
        have call := ucParsePacket_linkCall width starts interface direction timestamp budget
          (fun _ => .zero) raw
        generalize ucParsePacket width memory (budget + 1) _ _ datalink = parsed
          at call returned
        cases call with
        | leaf none => simp [none] at found
        | nested some _ _ start rest =>
          obtain rfl : _ = length := by simpa [some] using found
          rw [diverges budget _ _ start rest] at returned
          simp at returned
  · intro nests memory starts pool
    by_cases raw : datalink = dltRaw
    · obtain ⟨budget, inner⟩ :=
        (nests capture.length (by simp [payload, raw])).returns width le_rfl
      refine ⟨budget, ?_⟩
      rw [raw]
      exact inner memory starts pool _ (by simp [Capture.packet, PacketInfo.zero]) rfl
    · cases found : payload capture datalink with
      | none =>
        refine ⟨1, ?_⟩
        have call := ucParsePacket_linkCall width starts interface direction timestamp 0
          pool raw
        generalize ucParsePacket width memory 1 pool _ datalink = parsed at call
        cases call with
        | leaf => rfl
        | nested some => simp [some] at found
      | some length =>
        obtain ⟨budget, inner⟩ := (nests length found).returns width (payload_le found)
        refine ⟨budget + 1, ?_⟩
        have call := ucParsePacket_linkCall width starts interface direction timestamp budget
          pool raw
        generalize ucParsePacket width memory (budget + 1) pool _ datalink = parsed at call
        cases call with
        | leaf => rfl
        | nested some _ _ start rest =>
          obtain rfl : _ = length := by simpa [some] using found
          rw [isSome_map]
          exact inner memory starts _ _ start rest

/-- This IPv4 packet claims a header of length zero and an IPv4 packet inside. -/
def selfNested : Capture where
  bytes := [0x40, 0, 0, 0, 0, 0, 0, 0, 0, 4, 0, 0, 0, 0, 0, 0, 0, 0, 0, 0]
  fits := by decide

theorem ucParsePacket_never_returns :
    selfNested.Starts selfNested.byte ∧ ∀ budget, (ucParsePacket .bits64 selfNested.byte budget
      (fun _ => .zero) (selfNested.packet "eth0" .incoming 0) dltRaw).result = none := by
  constructor
  · intro offset inside
    rfl
  · intro budget
    have loops : Diverges .bits64 selfNested.byte 0 20 :=
      diverges_of_empty_header (by decide) (by decide)
    exact loops budget _ _ rfl rfl

end Ucollect.Core
