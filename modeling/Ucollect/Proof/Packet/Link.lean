import Ucollect.Proof.Packet.Encapsulation

namespace Ucollect.Core
open List

/-- A byte lies inside the captured data, and so does the range of a nested packet. -/
def Access.Inside (bound : Nat) : Access → Prop
  | .byte offset => offset < bound
  | .nested data length => data + length ≤ bound

/-- Two memories agree on the captured data. -/
def AgreeBelow (bound : Nat) (first second : PacketMemory) : Prop :=
  ∀ offset < bound, first offset = second offset

variable {capture : Capture}

theorem Capture.Starts.agree {memory : PacketMemory} (starts : capture.Starts memory) :
    AgreeBelow capture.length memory capture.byte := starts

variable {first second : PacketMemory} {bound : Nat}

theorem AgreeBelow.word (agree : AgreeBelow bound first second) {offset : Nat}
    (inside : offset + 2 ≤ bound) :
    word first offset = word second offset := by
  rw [Core.word, Core.word, agree offset (by omega), agree (offset + 1) (by omega)]

variable {length : Nat}

/-- The fields of an IP header lie inside a packet that has a complete header. -/
theorem AgreeBelow.carries (agree : AgreeBelow bound first second) {data : Nat}
    (inside : data + length ≤ bound) :
    carries first data length = carries second data length := by
  by_cases short : length < iphdrSize
  · simp only [Core.carries, short, if_true]
  · have long : 20 ≤ length := Nat.le_of_not_lt short
    have version : ipVersion first data = ipVersion second data := by
      rw [ipVersion, ipVersion, agree data (by omega)]
    have ihl : ipIhl first data = ipIhl second data := by
      rw [ipIhl, ipIhl, agree data (by omega)]
    rw [Core.carries, Core.carries, version, ihl, agree (data + 6) (by omega),
      agree (data + 9) (by omega)]

theorem wordBytes_inside {offset : Nat} (inside : offset + 2 ≤ bound) :
    ∀ access ∈ wordBytes offset, access.Inside bound := by
  simp only [wordBytes, mem_cons, not_mem_nil, or_false]
  rintro access (rfl | rfl)
  · exact (by omega : offset < bound)
  · exact (by omega : offset + 1 < bound)

/-- The skipping loop stays inside the packet and counts what it skips. -/
theorem skipTags_spec (memory : PacketMemory) (length start type : Nat)
    (inside : start + 2 ≤ length) :
    (∀ access ∈ (skipTags memory length start start type).1, access.Inside length) ∧
    ∀ data skipped final, (skipTags memory length start start type).2 =
      some (data, skipped, final) → data = skipped ∧ skipped + 2 ≤ length := by
  induction remaining : length - start using Nat.strong_induction_on generalizing start type with
  | _ remaining ih =>
    rw [skipTags]
    by_cases tagged : type = 0x88a8 ∨ type = 0x9100
    · simp only [tagged, if_true]
      by_cases short : start + 4 + 2 ≥ length
      · simp [short]
      · simp only [short, dite_false]
        have rest := ih (length - (start + 4)) (by omega) (start + 4)
          (word memory (start + 4)) (by omega) rfl
        refine ⟨?_, rest.2⟩
        intro access member
        rcases mem_append.mp member with here | later
        · exact wordBytes_inside (by omega) access here
        · exact rest.1 access later
    · simp only [tagged, if_false]
      refine ⟨by simp, ?_⟩
      rintro data skipped final ⟨⟩
      exact ⟨rfl, inside⟩

theorem skipTags_agree (agree : AgreeBelow length first second) (start type : Nat) :
    skipTags first length start start type = skipTags second length start start type := by
  induction remaining : length - start using Nat.strong_induction_on generalizing start type with
  | _ remaining ih =>
    rw [skipTags.eq_def first, skipTags.eq_def second]
    by_cases tagged : type = 0x88a8 ∨ type = 0x9100
    · simp only [tagged, if_true]
      by_cases short : start + 4 + 2 ≥ length
      · simp [short]
      · simp only [short, dite_false]
        rw [agree.word (show start + 4 + 2 ≤ length by omega)]
        rw [ih (length - (start + 4)) (by omega) (start + 4) _ rfl]
    · simp only [tagged, if_false]

/-- The link header lies inside the packet. -/
theorem linkHeader_spec (memory : PacketMemory) (length start : Nat)
    (inside : start + 2 ≤ length) :
    (∀ access ∈ (linkHeader memory length start start).accesses, access.Inside length) ∧
    ∀ header, (linkHeader memory length start start).header = some header →
      header.data = header.skipped ∧ header.skipped ≤ length := by
  obtain ⟨bytes, tags⟩ := skipTags_spec memory length start (word memory start) inside
  have before : ∀ access ∈ wordBytes start ++
      (skipTags memory length start start (word memory start)).1, access.Inside length := by
    intro access member
    rcases mem_append.mp member with here | later
    · exact wordBytes_inside inside access here
    · exact bytes access later
  have append {more : List Access} (rest : ∀ access ∈ more, access.Inside length) :
      ∀ access ∈ wordBytes start ++
        (skipTags memory length start start (word memory start)).1 ++ more,
        access.Inside length := by
    intro access member
    rcases mem_append.mp member with here | later
    · exact before access here
    · exact rest access later
  unfold linkHeader
  cases skipped : (skipTags memory length start start (word memory start)).2 with
  | none => simpa [skipped] using before
  | some found =>
    obtain ⟨data, count, type⟩ := found
    obtain ⟨rfl, room⟩ := tags data count type skipped
    simp only [skipped]
    by_cases vlan : type = 0x8100
    · simp only [vlan, if_true]
      by_cases short : data + 2 + 2 ≥ length
      · simp only [short, if_true]
        exact ⟨before, by simp⟩
      · simp only [short, if_false]
        by_cases shorter : data + 4 + 2 ≥ length
        · simp only [shorter, if_true]
          exact ⟨append (wordBytes_inside (by omega)), by simp⟩
        · simp only [shorter, if_false, append_assoc]
          rw [← append_assoc]
          refine ⟨append ?_, by rintro header ⟨⟩; exact ⟨rfl, by simp; omega⟩⟩
          intro access member
          rcases mem_append.mp member with here | later
          · exact wordBytes_inside (by omega) access here
          · exact wordBytes_inside (by omega) access later
    · simp only [vlan, if_false]
      exact ⟨append (wordBytes_inside room), by rintro header ⟨⟩; exact ⟨rfl, room⟩⟩

theorem linkHeader_agree {start : Nat} (agree : AgreeBelow length first second)
    (inside : start + 2 ≤ length) :
    (linkHeader first length start start).header =
      (linkHeader second length start start).header := by
  unfold linkHeader
  rw [agree.word inside, skipTags_agree agree]
  have tags := (skipTags_spec second length start (word second start) inside).2
  cases skipped : (skipTags second length start start (word second start)).2 with
  | none => simp [skipped]
  | some found =>
    obtain ⟨data, count, type⟩ := found
    obtain ⟨rfl, room⟩ := tags data count type skipped
    simp only [skipped, agree.word room]
    by_cases vlan : type = 0x8100
    · simp only [vlan, if_true]
      by_cases short : data + 2 + 2 ≥ length
      · simp [short]
      · by_cases shorter : data + 4 + 2 ≥ length
        · simp [short, shorter]
        · simp [short, shorter, agree.word (show data + 4 + 2 ≤ length by omega)]
    · simp [vlan]

/-- A frame has its type field at a fixed place behind the addresses. -/
def typeField (datalink : Int) : Option Nat :=
  if datalink = dltEn10mb ∨ datalink = dltIeee802 then some 12
  else if datalink = dltLinuxSll then some 14
  else none

/-- The IP packet of a frame starts behind the link header and ends with the capture. -/
def framed (memory : PacketMemory) (length field : Nat) : Option Nat :=
  if length < field + 2 then none
  else match (linkHeader memory length field field).header with
    | none => none
    | some header => if carriesIp header.type then some (length - header.skipped) else none

/-- This is the length of the IP packet at the end of the capture. -/
def payload (capture : Capture) (datalink : Int) : Option Nat :=
  if datalink = dltRaw then some capture.length
  else match typeField datalink with
    | none => none
    | some field => framed capture.byte capture.length field

theorem payload_le {datalink : Int} (found : payload capture datalink = some length) :
    length ≤ capture.length := by
  unfold payload framed at found
  grind

/-- This relation lists everything that a call on a frame can do. -/
inductive LinkCall (bound : Nat) (inner : PacketInfo → Parsed) (carried : Option Nat) :
    Parsed → Prop where
  | leaf {own : List Access} {result : PacketInfo} (none : carried = none)
      (inside : ∀ access ∈ own, access.Inside bound) : LinkCall bound inner carried ⟨own, some result⟩
  | nested {own : List Access} {next : PacketInfo} {length : Nat}
      {finish : PacketInfo → PacketInfo} (some : carried = some length)
      (inside : ∀ access ∈ own, access.Inside bound) (fits : length ≤ bound)
      (start : next.data = bound - length) (rest : next.length = length) :
      LinkCall bound inner carried
        ⟨own ++ (inner next).accesses, (inner next).result.map finish⟩

theorem LinkCall.accessing {inner : PacketInfo → Parsed} {carried : Option Nat} {parsed : Parsed}
    {before : List Access} (inside : ∀ access ∈ before, access.Inside bound)
    (call : LinkCall bound inner carried parsed) :
    LinkCall bound inner carried (Core.accessing before parsed) := by
  have append {own : List Access} (rest : ∀ access ∈ own, access.Inside bound) :
      ∀ access ∈ before ++ own, access.Inside bound := by
    intro access member
    rcases mem_append.mp member with early | late
    · exact inside access early
    · exact rest access late
  cases call with
  | leaf none rest => exact .leaf none (append rest)
  | nested some rest fits start length =>
    rw [Core.accessing, ← append_assoc]
    exact .nested some (append rest) fits start length

theorem Width.sub_of_le (width : Width) {first second : Nat} (order : second ≤ first)
    (fits : first < 2 ^ 32) : width.sub first second = first - second := by
  have wide : 2 ^ 32 ≤ width.modulus := by cases width <;> decide
  rw [Width.sub, show first + width.modulus - second = first - second + width.modulus by omega,
    Nat.add_mod_right, Nat.mod_eq_of_lt (by omega)]

/-- A difference below zero wraps around to a large number. -/
theorem Width.sub_of_lt (width : Width) {first second : Nat} (order : first < second) : width.sub first second = first + width.modulus - second := by
  have wide : 2 ^ 32 ≤ width.modulus := by cases width <;> decide
  rw [Width.sub, Nat.mod_eq_of_lt (by omega)]

/-- The type of a frame decides whether the parser looks further. -/
theorem parseType_linkCall (width : Width) (memory : PacketMemory) (inner : PacketInfo → Parsed)
    {packet : PacketInfo} {field : Nat} (start : packet.data = 0) (whole : packet.length = length)
    (room : field + 2 ≤ length) (fits : length < 2 ^ 32) :
    LinkCall length inner (framed memory length field)
      (parseType width memory inner packet field) := by
  subst whole
  obtain ⟨bytes, header⟩ := linkHeader_spec memory packet.length field room
  rw [parseType, framed, if_neg (by omega), start, Nat.sub_zero]
  cases found : (linkHeader memory packet.length field field).header with
  | none =>
    simp only [accessing, Parsed.done, append_nil]
    exact .leaf rfl bytes
  | some link =>
    obtain ⟨same, behind⟩ := header link found
    have rest : width.sub packet.length link.skipped = packet.length - link.skipped :=
      width.sub_of_le behind fits
    have inside : ∀ access ∈ (linkHeader memory packet.length field field).accesses ++
        [.nested link.data (packet.length - link.skipped)], access.Inside packet.length := by
      intro access member
      rcases mem_append.mp member with early | late
      · exact bytes access early
      · rw [mem_singleton.mp late]
        exact (by omega : link.data + (packet.length - link.skipped) ≤ packet.length)
    simp only [accessing, rest, ← append_assoc]
    by_cases ip : carriesIp link.type
    · simp only [ip, if_true, Parsed.andThen]
      exact .nested rfl inside (Nat.sub_le _ _) (by simp; omega) rfl
    · simp only [ip, Bool.false_eq_true, if_false, Parsed.done, append_nil]
      exact .leaf rfl inside

/-- The bytes that decide about a frame are captured bytes. -/
theorem framed_agree (agree : AgreeBelow length first second) (field : Nat) :
    framed first length field = framed second length field := by
  by_cases short : length < field + 2
  · simp only [framed, short, if_true]
  · rw [framed, framed, linkHeader_agree agree (Nat.le_of_not_lt short)]

/-- A call on a frame reads its link header and makes at most one call on an IP packet. -/
theorem ucParsePacket_linkCall (width : Width) {memory : PacketMemory}
    (starts : capture.Starts memory) (interface : String) (direction : Direction)
    (timestamp budget : Nat) (pool : Nat → PacketInfo) {datalink : Int}
    (frame : datalink ≠ dltRaw) :
    LinkCall capture.length
      (fun next => ucParsePacket width memory budget (fun index => pool (index + 1)) next dltRaw)
      (payload capture datalink)
      (ucParsePacket width memory (budget + 1) pool
        (capture.packet interface direction timestamp) datalink) := by
  have captured (field : Nat) : framed capture.byte capture.length field =
      framed memory capture.length field := (framed_agree starts.agree field).symm
  rw [ucParsePacket, payload, if_neg frame]
  by_cases ethernet : datalink = dltEn10mb ∨ datalink = dltIeee802
  · simp only [typeField, ethernet, if_true, captured]
    rw [parseEthernet]
    by_cases short : capture.length < 14
    · simp only [Capture.packet, framed, short, if_true]
      exact .leaf rfl (by simp)
    · have room : 12 + 2 ≤ capture.length := Nat.le_of_not_lt short
      simp only [Capture.packet, short, if_false]
      exact parseType_linkCall width memory _ rfl rfl room capture.fits
  · simp only [typeField, ethernet, frame, if_false]
    by_cases cooked : datalink = dltLinuxSll
    · simp only [cooked, if_true, captured]
      rw [parseCooked]
      by_cases short : capture.length < 16
      · simp only [Capture.packet, framed, short, if_true]
        exact .leaf rfl (by simp)
      · have room : 14 + 2 ≤ capture.length := Nat.le_of_not_lt short
        simp only [Capture.packet, short, if_false]
        refine LinkCall.accessing ?_ (parseType_linkCall width memory _ rfl rfl room capture.fits)
        exact wordBytes_inside (by simp [PacketInfo.zero]; omega)
    · simp only [cooked, if_false]
      exact .leaf rfl (by simp)

end Ucollect.Core
