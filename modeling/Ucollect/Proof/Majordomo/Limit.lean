import Ucollect.Proof.Flow.Table
import Ucollect.Proof.Majordomo.Accounting

namespace Ucollect.Majordomo
open Library Core List
open Flow (ByteOrder addrBytes)

/-- Few keys of a source have their own record, the other keys are counted in the record `other`,
and each visited entry has a record. -/
structure Limited (plugin : Plugin) : Prop where
  bounded : ∀ source, (plugin.table.records source).length ≤ sourceSizeLimit
  diverted : ∀ arrival ∈ plugin.log,
    (∀ visit ∈ trieWalk plugin.table.communication,
      visit.key = arrival.packet.key → visit.data = none) → arrival.place = .other
  recorded : ∀ visit ∈ trieWalk plugin.table.communication, visit.data ≠ none

/-- These are the keys of a source without repetitions. -/
def distinctKeys (packets : List Accepted) (source : Bytes) : List Key :=
  ((packets.filter fun packet => packet.source = source).map Accepted.key).dedup

def FewKeys (packets : List Accepted) : Prop :=
  ∀ source, (distinctKeys packets source).length ≤ sourceSizeLimit

variable {plugin : Plugin} {table : Table} {log : List Arrival}

theorem Books.sourceKeys_perm (books : Books table log) (source : Bytes) :
    (sourceKeys table source).Perm (distinctKeys (log.map Arrival.packet) source) := by
  apply (perm_ext_iff_of_nodup (books.represents.walk_nodup.filter _)
    (nodup_dedup _)).mpr
  intro key
  rw [mem_filter, mem_walk_keys books, mem_dedup, List.mem_map]
  constructor
  · rintro ⟨known, same⟩
    obtain ⟨packet, rest, packets⟩ := exists_cons_of_ne_nil known
    have head : packet ∈ own key log := by rw [packets]; exact mem_cons_self
    obtain ⟨keyed, arrival, inLog, rfl⟩ := mem_own head
    refine ⟨arrival.packet, mem_filter.mpr ⟨List.mem_map_of_mem inLog, ?_⟩, keyed⟩
    rw [← (books.shaped arrival inLog).source, keyed]
    exact same
  · rintro ⟨packet, member, rfl⟩
    obtain ⟨logged, same⟩ := mem_filter.mp member
    obtain ⟨arrival, inLog, rfl⟩ := List.mem_map.mp logged
    constructor
    · exact ne_nil_of_mem (mem_filter.mpr ⟨logged, by simp⟩)
    · rw [(books.shaped arrival inLog).source]
      exact same

theorem Books.records_length (books : Books table log) (source : Bytes) :
    (table.records source).length = (distinctKeys (log.map Arrival.packet) source).length := by
  have right : ∀ visit ∈ trieWalk table.communication, ∃ data, visit.data = some data ∧
      (0 : Tally) = 0 := by
    intro visit member
    obtain ⟨first, rest, -, record⟩ := books.visit member
    exact ⟨_, record, rfl⟩
  have lengths := congrArg List.length
    (records_map table source (fun _ => 0) (fun _ => 0) right)
  rw [length_map, length_map] at lengths
  rw [lengths, (books.sourceKeys_perm source).length_eq]

/-- The limit holds exactly when no source has more keys than the limit. -/
theorem Books.limited_iff (books : Books plugin.table plugin.log) :
    Limited plugin ↔ FewKeys (plugin.log.map Arrival.packet) := by
  have recorded : ∀ visit ∈ trieWalk plugin.table.communication, visit.data ≠ none := by
    intro visit member
    obtain ⟨first, rest, -, record⟩ := books.visit member
    simp [record]
  constructor
  · intro limited source
    rw [← books.records_length]
    exact limited.bounded source
  · intro few
    constructor
    case bounded =>
      intro source
      rw [books.records_length]
      exact few source
    case diverted =>
      intro arrival member missing
      have known : own arrival.packet.key plugin.log ≠ [] :=
        ne_nil_of_mem (mem_filter.mpr ⟨List.mem_map_of_mem member, by simp⟩)
      obtain ⟨visit, inside, same⟩ := List.mem_map.mp ((mem_walk_keys books _).mpr known)
      exact absurd (missing visit inside same) (recorded visit inside)
    case recorded => exact recorded

/-- After any run the dump finds a record for each entry, and the limit holds exactly when no source
has more keys since the last dump. -/
theorem sources_limited (width : Width) (order : ByteOrder) (events : List Event) :
    ∃ plugin, Plugin.init.run width order events = .ok plugin ∧
      (∃ lines, plugin.table.dump = .ok lines) ∧
      (Limited plugin ↔ FewKeys (sinceDump width order events)) := by
  obtain ⟨plugin, ran, books, packets⟩ := run_books width order events
  exact ⟨plugin, ran, books.dump, by rw [books.limited_iff, packets]⟩

section Flood

/-- This frame asks one server at one of its ports. -/
def question (port : UInt16) : Frame where
  layer := letter 'E'
  direction := .incoming
  addresses := ⟨[2, 0, 0, 0, 0, 2], [2, 0, 0, 0, 0, 1]⟩
  next := some
    { layer := letter 'I'
      ipProtocol := 4
      appProtocol := letter 'U'
      addresses := ⟨[10, 0, 0, 1], [192, 0, 2, 1]⟩
      ports := ⟨5353, port⟩
      length := 60
      hdrLength := 28
      family := by decide }
  hardware := fun _ _ => ⟨rfl, rfl⟩

def asked (port : UInt16) : Accepted where
  source := [2, 0, 0, 0, 0, 2]
  key := buildKey .little [2, 0, 0, 0, 0, 2] [192, 0, 2, 1] (letter 'U') port
  direction := .incoming
  size := UInt64.ofNat 60
  dataSize := UInt64.ofNat (Width.bits64.sub 60 28)

theorem accept_question (port : UInt16) :
    accept .bits64 .little [] (question port) = some (asked port) := by
  simp [accept, question, asked, directionUpload, localEndpoint, remoteEndpoint, filterAddress,
    isOdd]

theorem sinceDump_questions (ports : List UInt16) :
    sinceDump .bits64 .little (ports.map fun port => .packet (question port)) =
      ports.map asked := by
  have accepted (before : List Accepted) :
      (ports.map fun port => Event.packet (question port)).foldl (accepting .bits64 .little)
        ([], before) = ([], before ++ ports.map asked) := by
    induction ports generalizing before with
    | nil => simp
    | cons port ports hypothesis =>
      rw [map_cons, foldl_cons, accepting, accept_question, hypothesis]
      simp
  rw [sinceDump, accepted]
  rfl

/-- A source scans ports until its limit is exceeded, and each port has its own record. -/
theorem question_flood : ∃ plugin,
    Plugin.init.run .bits64 .little
      ((List.range 6001).map fun port => .packet (question (UInt16.ofNat port))) = .ok plugin ∧
    ¬ Limited plugin := by
  obtain ⟨plugin, ran, books, packets⟩ := run_books .bits64 .little
    ((List.range 6001).map fun port => .packet (question (UInt16.ofNat port)))
  refine ⟨plugin, ran, fun limited => ?_⟩
  have few := books.limited_iff.mp limited [2, 0, 0, 0, 0, 2]
  have mapped : ((List.range 6001).map fun port => Event.packet (question (UInt16.ofNat port))) =
      ((List.range 6001).map UInt16.ofNat).map fun port => .packet (question port) := by
    rw [List.map_map]
    rfl
  rw [packets, mapped, sinceDump_questions, List.map_map] at few
  have all : ((List.range 6001).map (asked ∘ UInt16.ofNat)).filter
      (fun packet => packet.source = [2, 0, 0, 0, 0, 2]) =
        (List.range 6001).map (asked ∘ UInt16.ofNat) := by
    apply filter_eq_self.mpr
    intro packet member
    obtain ⟨port, -, rfl⟩ := List.mem_map.mp member
    rfl
  have distinct : ((List.range 6001).map (Accepted.key ∘ asked ∘ UInt16.ofNat)).Nodup := by
    apply Nodup.map_on _ nodup_range
    intro first firstIn second secondIn same
    rw [mem_range] at firstIn secondIn
    have ports := Flow.bytes_injective (append_cancel_left same)
    have numbers := congrArg UInt16.toNat ports
    rwa [UInt16.toNat_ofNat', UInt16.toNat_ofNat', Nat.mod_eq_of_lt (by omega),
      Nat.mod_eq_of_lt (by omega)] at numbers
  rw [distinctKeys, all, List.map_map, distinct.dedup, length_map, length_range] at few
  exact absurd few (by decide)

end Flood

end Ucollect.Majordomo
