import Mathlib.Data.List.GetD
import Ucollect.Construction.Majordomo.Traffic
import Ucollect.Library.Tables
import Ucollect.Proof.Trie.Refinement

namespace Ucollect.Majordomo
open Library Core List Option Function
open Flow (ByteOrder addrBytes)

section Tallies

instance : Zero Tally := ⟨⟨0, 0, 0⟩⟩

instance : Add Tally := ⟨fun first second =>
  ⟨first.count + second.count, first.size + second.size, first.dataSize + second.dataSize⟩⟩

theorem Tally.add_eq (first second : Tally) : first + second =
    ⟨first.count + second.count, first.size + second.size, first.dataSize + second.dataSize⟩ := rfl

theorem Tally.zero_eq : (0 : Tally) = ⟨0, 0, 0⟩ := rfl

instance : AddCommMonoid Tally where
  add_assoc first second third := by simp only [Tally.add_eq, UInt64.add_assoc]
  zero_add tally := by simp [Tally.add_eq, Tally.zero_eq]
  add_zero tally := by simp [Tally.add_eq, Tally.zero_eq]
  add_comm first second := by
    simp only [Tally.add_eq, UInt64.add_comm first.count, UInt64.add_comm first.size,
      UInt64.add_comm first.dataSize]
  nsmul := nsmulRec

def Accepted.tally (packet : Accepted) : Tally := ⟨1, packet.size, packet.dataSize⟩

/-- These are the sums over the packets of one direction. -/
def tallyOf (direction : Direction) (packets : List Accepted) : Tally :=
  ((packets.filter fun packet => packet.direction = direction).map Accepted.tally).sum

/-- A record has nothing for a direction that is not known. -/
def TrieData.at (data : TrieData) : Direction → Tally
  | .incoming => data.u
  | .outgoing => data.d
  | .unknown => 0
@[simp] theorem tallyOf_nil (direction : Direction) : tallyOf direction [] = 0 := rfl

theorem tallyOf_cons (direction : Direction) (packet : Accepted) (packets : List Accepted) :
    tallyOf direction (packet :: packets) =
      (if packet.direction = direction then packet.tally else 0) + tallyOf direction packets := by
  by_cases same : packet.direction = direction <;> simp [tallyOf, same]

end Tallies

section Records

/-- An update of a record with a known direction. -/
def TrieData.add (data : TrieData) (packet : Accepted) : TrieData :=
  if packet.direction = directionUpload then
    { data with u := data.u.update packet.size packet.dataSize }
  else { data with d := data.d.update packet.size packet.dataSize }

theorem updateValue_known {packet : Accepted} (known : packet.direction ≠ .unknown)
    (data : TrieData) :
    updateValue data packet.direction packet.size packet.dataSize = .ok (data.add packet) := by
  cases direction : packet.direction with
  | incoming => simp [updateValue, TrieData.add, direction, directionUpload]
  | outgoing => simp [updateValue, TrieData.add, direction, directionUpload, directionDownload]
  | unknown => exact absurd direction known

theorem Tally.update_eq (tally : Tally) (packet : Accepted) :
    tally.update packet.size packet.dataSize = tally + packet.tally := rfl

theorem TrieData.add_at {packet : Accepted} (known : packet.direction ≠ .unknown)
    (data : TrieData) (direction : Direction) :
    (data.add packet).at direction =
      data.at direction + if packet.direction = direction then packet.tally else 0 := by
  cases own : packet.direction with
  | incoming =>
    cases direction <;> simp [TrieData.add, TrieData.at, own, directionUpload, Tally.update_eq]
  | outgoing =>
    cases direction <;> simp [TrieData.add, TrieData.at, own, directionUpload, Tally.update_eq]
  | unknown => exact absurd own known

theorem addAll_at {packets : List Accepted} (known : ∀ packet ∈ packets, packet.direction ≠ .unknown)
    (data : TrieData) (direction : Direction) :
    (packets.foldl TrieData.add data).at direction =
      data.at direction + tallyOf direction packets := by
  induction packets generalizing data with
  | nil => simp
  | cons packet packets hypothesis =>
    rw [foldl_cons, hypothesis (fun other member => known other (.tail _ member)),
      TrieData.add_at (known packet (.head _)), tallyOf_cons, add_assoc]

/-- The record after the packets of a key in their order. -/
def recordOf : List Accepted → Option TrieData
  | [] => none
  | packet :: packets => some (packets.foldl TrieData.add (initTrieData packet))

theorem recordOf_append (packets : List Accepted) (packet : Accepted) :
    recordOf (packets ++ [packet]) = some (match recordOf packets with
      | none => initTrieData packet
      | some data => data.add packet) := by
  cases packets with
  | nil => rfl
  | cons first rest => simp [recordOf]

/-- The first packet of a key is counted as an upload. -/
theorem recordOf_at {first : Accepted} {rest : List Accepted}
    (known : ∀ packet ∈ rest, packet.direction ≠ .unknown) (direction : Direction) :
    (rest.foldl TrieData.add (initTrieData first)).at direction =
      tallyOf direction ({ first with direction := directionUpload } :: rest) := by
  rw [addAll_at known, tallyOf_cons]
  congr 1
  cases direction <;> rfl

/-- One packet more changes the count. -/
theorem tally_add_ne (packet : Accepted) (tally : Tally) : packet.tally + tally ≠ tally := by
  intro same
  have counts : 1 + tally.count = tally.count := congrArg Tally.count same
  have one : (1 : UInt64) = 0 := by
    have shifted : 1 + tally.count = 0 + tally.count := by rw [counts, UInt64.zero_add]
    exact (UInt64.add_left_inj tally.count).mp shifted
  exact absurd one (by decide)

/-- The record of a key is right exactly when the first packet of the key is an upload. -/
theorem record_right_iff {first : Accepted} {rest : List Accepted} :
    (∀ direction, tallyOf direction ({ first with direction := directionUpload } :: rest) =
      tallyOf direction (first :: rest)) ↔ first.direction = directionUpload := by
  constructor
  · intro same
    by_contra other
    have upload := same directionUpload
    rw [tallyOf_cons, tallyOf_cons, if_pos rfl, if_neg other, zero_add] at upload
    exact tally_add_ne _ _ upload
  · intro upload direction
    rw [tallyOf_cons, tallyOf_cons, upload]
    rfl

end Records

section Keys

/-- This is the field `from` with its length. -/
def keySource (key : Key) : Bytes := (key.take 16).take (key.getD 32 0).toNat

/-- An accepted packet has these properties. -/
structure Accepted.Shaped (packet : Accepted) : Prop where
  known : packet.direction ≠ .unknown
  size : packet.key.length = 38
  source : keySource packet.key = packet.source
  protocol : packet.key.getD 34 0 = letter 'T' ∨ packet.key.getD 34 0 = letter 'U'

theorem addrBytes_length {address : Bytes} (short : address.length ≤ 16) :
    (addrBytes address).length = 16 := by
  rw [addrBytes, length_append, length_replicate]
  omega

section Layout

variable {src dst : Bytes} (order : ByteOrder) (near : src.length ≤ 16) (far : dst.length ≤ 16)
  (protocol : UInt8) (port : UInt16)

include near far

theorem buildKey_length : (buildKey order src dst protocol port).length = 38 := by
  have portSize : (order.bytes port).length = 2 := by cases order <;> rfl
  simp only [buildKey, length_append, addrBytes_length near, addrBytes_length far, portSize,
    length_cons, length_nil]

theorem buildKey_header (position : Nat) (inside : position < 4) :
    (buildKey order src dst protocol port).getD (32 + position) 0 =
      [UInt8.ofNat src.length, UInt8.ofNat dst.length, protocol, 0].getD position 0 := by
  have addresses : (addrBytes src ++ addrBytes dst).length = 32 := by
    rw [length_append, addrBytes_length near, addrBytes_length far]
  rw [buildKey, append_assoc, getD_append_right _ _ _ _ (by omega), addresses,
    getD_append _ _ _ _ (by simpa using inside)]
  congr 1
  omega

theorem buildKey_source : keySource (buildKey order src dst protocol port) = src := by
  have length := buildKey_header order near far protocol port 0 (by decide)
  have head : (buildKey order src dst protocol port).take 16 = addrBytes src := by
    rw [buildKey, append_assoc, append_assoc, take_left' (addrBytes_length near)]
  rw [keySource, length, head, addrBytes, getD_cons_zero, UInt8.toNat_ofNat',
    Nat.mod_eq_of_lt (by omega), take_left]

end Layout

theorem accept_shaped {width : Width} {order : ByteOrder} {filter : List FilterRule}
    {frame : Frame} {packet : Accepted} (accepted : accept width order filter frame = some packet) :
    packet.Shaped := by
  simp only [accept] at accepted
  split at accepted
  · cases accepted
  rename_i direction
  split at accepted
  · cases accepted
  rename_i ethernet
  cases below : frame.next with
  | none => simp [below] at accepted
  | some info =>
    simp only [below] at accepted
    split at accepted
    · cases accepted
    split at accepted
    · cases accepted
    rename_i protocol
    split at accepted
    · cases accepted
    rename_i version
    split at accepted
    · cases accepted
    split at accepted
    · cases accepted
    obtain ⟨srcSize, dstSize⟩ := frame.hardware (by simpa using ethernet) (by simp [below])
    have near : (localEndpoint frame.direction frame.addresses).length = 6 := by
      unfold localEndpoint
      split <;> assumption
    have far : (remoteEndpoint frame.direction info.addresses).length ≤ 16 := by
      have family := info.family
      unfold remoteEndpoint
      split <;> omega
    cases accepted
    exact {
      known := by
        intro (unknown : frame.direction = .unknown)
        exact direction (by rw [unknown]; decide)
      size := buildKey_length order (by omega) far _ _
      source := buildKey_source order (by omega) far _ _
      protocol := by
        rw [buildKey_header order (by omega) far _ _ 2 (by decide)]
        simpa [or_iff_not_imp_left] using protocol }

end Keys

end Ucollect.Majordomo

namespace Ucollect.Majordomo
open Library Core List Option Function
open Flow (ByteOrder addrBytes)

/-- These are the packets of a key. -/
def ofKey (key : Key) (packets : List Accepted) : List Accepted :=
  packets.filter fun packet => packet.key = key

def own (key : Key) (log : List Arrival) : List Accepted := ofKey key (log.map Arrival.packet)

section Books

/-- The table holds one record for each key of the log. -/
structure Books (table : Table) (log : List Arrival) : Prop where
  represents : table.communication.Represents fun key => (recordOf (own key log)).map some
  shaped : ∀ arrival ∈ log, arrival.packet.Shaped
  places : ∀ arrival ∈ log, arrival.place = .entry
  spare : ∀ it ∈ table.sources, it.other = .zero ∧ it.itemsInCommList = 1

theorem books_fresh : Books .fresh [] where
  represents := trieAlloc_represents
  shaped := by simp
  places := by simp
  spare := by simp [Table.fresh]

theorem own_append (key : Key) (log : List Arrival) (arrival : Arrival) :
    own key (log ++ [arrival]) =
      own key log ++ if arrival.packet.key = key then [arrival.packet] else [] := by
  by_cases same : arrival.packet.key = key <;> simp [own, ofKey, same]

theorem findSrc_lt {sources : List SrcItem} {source : Bytes} {position : Nat}
    (found : findSrc sources source = some position) : position < sources.length :=
  (List.findIdx?_eq_some_iff_findIdx_eq.mp found).1

variable {log : List Arrival} {table : Table} {packet : Accepted}

/-- The keys have one length, so no key ends inside an edge. -/
theorem Books.not_cutsEdge (books : Books table log) (shaped : packet.Shaped) :
    ¬ CutsEdge table.communication.root.keys packet.key := by
  apply not_cutsEdge_of_length
  intro longer member
  have present := (books.represents.mem_keys_iff longer).mp member
  cases packets : own longer log with
  | nil => simp [packets, recordOf] at present
  | cons first rest =>
    have inside : first ∈ own longer log := by simp [packets]
    obtain ⟨logged, same⟩ := mem_filter.mp inside
    obtain ⟨arrival, inLog, rfl⟩ := List.mem_map.mp logged
    have size := (books.shaped arrival inLog).size
    rw [← shaped.size, of_decide_eq_true same] at size
    exact size

/-- A packet updates the record of its key or creates it, and `other` stays as it is. -/
theorem Books.count (books : Books table log) (shaped : packet.Shaped) :
    ∃ next, table.count packet = .ok (next, .entry) ∧ Books next (log ++ [⟨packet, .entry⟩]) := by
  obtain ⟨trie, slot, indexed, stored, -, stores⟩ :=
    books.represents.index_slot packet.key fun _ => books.not_cutsEdge shaped
  have shapedAll : ∀ arrival ∈ log ++ [⟨packet, .entry⟩], arrival.packet.Shaped := by
    simpa [or_imp, forall_and] using And.intro books.shaped shaped
  have placesAll : ∀ arrival ∈ log ++ [⟨packet, .entry⟩], arrival.place = .entry := by
    simpa [or_imp, forall_and] using books.places
  have updated (data : TrieData) (record : recordOf (own packet.key log ++ [packet]) = some data) :
      (trie.store slot (some data)).Represents
        fun key => (recordOf (own key (log ++ [⟨packet, .entry⟩]))).map some := by
    convert stores (some data) using 1
    funext key
    rw [own_append]
    by_cases same : packet.key = key
    · subst same
      simp [record]
    · simp [same, update_of_ne (Ne.symm same)]
  have record := recordOf_append (own packet.key log) packet
  simp only [Table.count, indexed]
  cases known : recordOf (own packet.key log) with
  | some data =>
    rw [known] at record
    simp only [known, map_some, join_some] at stored
    simp only [stored, updateValue_known shaped.known]
    exact ⟨_, rfl, updated _ record, shapedAll, placesAll, books.spare⟩
  | none =>
    rw [known] at record
    simp only [known, map_none, join_none] at stored
    simp only [stored]
    cases found : findSrc table.sources packet.source with
    | none =>
      refine ⟨_, rfl, updated _ record, shapedAll, placesAll, ?_⟩
      simpa [or_imp, forall_and] using books.spare
    | some position =>
      have bound := findSrc_lt found
      have free := (books.spare _ (getElem_mem bound)).2
      simp only [List.getElem?_eq_getElem bound, free, sourceSizeLimit]
      exact ⟨_, rfl, updated _ record, shapedAll, placesAll, books.spare⟩

/-- Every visited entry has a record, and its key is one of the plugin. -/
theorem Books.visit (books : Books table log) {visit : TrieVisit TrieData}
    (member : visit ∈ trieWalk table.communication) :
    ∃ first rest, own visit.key log = first :: rest ∧
      visit.data = some (rest.foldl TrieData.add (initTrieData first)) := by
  obtain ⟨-, entry⟩ := (books.represents.mem_walk visit).mp member
  cases packets : own visit.key log with
  | nil => simp [packets, recordOf] at entry
  | cons first rest =>
    refine ⟨first, rest, rfl, ?_⟩
    rw [packets, recordOf, map_some] at entry
    exact (Option.some.inj entry).symm

theorem mem_own {key : Key} (member : packet ∈ own key log) :
    packet.key = key ∧ ∃ arrival ∈ log, arrival.packet = packet := by
  obtain ⟨logged, same⟩ := mem_filter.mp member
  exact ⟨of_decide_eq_true same, List.mem_map.mp logged⟩

theorem dumpItem_returns {visit : TrieVisit TrieData} {data : TrieData}
    (protocol : visit.key.getD 34 0 = letter 'T' ∨ visit.key.getD 34 0 = letter 'U')
    (record : visit.data = some data) : ∃ line, dumpItem visit = .ok line := by
  unfold dumpItem
  rcases protocol with tcp | udp
  · rw [if_pos tcp, record]
    exact ⟨_, rfl⟩
  · have other : visit.key.getD 34 0 ≠ letter 'T' := by
      rw [udp]
      decide
    rw [if_neg other, if_pos udp, record]
    exact ⟨_, rfl⟩

/-- The dump follows no missing record. -/
theorem Books.dump (books : Books table log) : ∃ lines, table.dump = .ok lines := by
  have items (visits : List (TrieVisit TrieData))
      (all : ∀ visit ∈ visits, visit ∈ trieWalk table.communication) :
      ∃ lines, dumpItems visits = .ok lines := by
    induction visits with
    | nil => exact ⟨_, rfl⟩
    | cons visit visits hypothesis =>
      obtain ⟨first, rest, packets, data⟩ := books.visit (all visit (.head _))
      have head : first ∈ own visit.key log := by rw [packets]; exact mem_cons_self
      obtain ⟨same, arrival, member, eq⟩ := mem_own head
      have protocol := (books.shaped arrival member).protocol
      rw [eq, same] at protocol
      obtain ⟨lines, dumped⟩ := hypothesis fun other inside => all other (.tail _ inside)
      obtain ⟨line, written⟩ := dumpItem_returns protocol data
      exact ⟨_, by rw [dumpItems, written, dumped]; rfl⟩
  obtain ⟨lines, dumped⟩ := items _ fun _ member => member
  exact ⟨_, by rw [Table.dump, dumped]; rfl⟩

end Books

section Accounts

/-- These are the records of a source in the table. -/
def Table.records (table : Table) (source : Bytes) : List TrieData :=
  (trieWalk table.communication).filterMap fun visit =>
    if keySource visit.key = source then visit.data else none

/-- A source without an item has no other packets. -/
def Table.otherOf (table : Table) (source : Bytes) : TrieData :=
  ((table.sources.find? fun it => it.addr = source).map SrcItem.other).getD .zero

/-- The counters of each source and of each entry are the sums over their packets. -/
structure Accounts (plugin : Plugin) : Prop where
  sources : ∀ source direction,
    ((plugin.table.records source).map fun data => data.at direction).sum +
        (plugin.table.otherOf source).at direction =
      tallyOf direction
        ((plugin.log.map Arrival.packet).filter fun packet => packet.source = source)
  entries : ∀ visit ∈ trieWalk plugin.table.communication, ∀ data, visit.data = some data →
    ∀ direction, data.at direction =
      tallyOf direction (own visit.key (plugin.log.filter fun arrival => arrival.place = .entry))

/-- The first packet of each key is an upload. -/
def StartsWithUploads (packets : List Accepted) : Prop :=
  ∀ key first, (ofKey key packets).head? = some first → first.direction = directionUpload

variable {plugin : Plugin}

variable {table : Table} {log : List Arrival}

theorem Books.otherOf (books : Books table log) (source : Bytes) (direction : Direction) :
    (table.otherOf source).at direction = 0 := by
  have zero : table.otherOf source = .zero := by
    unfold Table.otherOf
    cases found : table.sources.find? fun it => it.addr = source with
    | none => rfl
    | some it => exact (books.spare it (mem_of_find?_eq_some found)).1
  rw [zero]
  cases direction <;> rfl

theorem Books.entry_at (books : Books table log) {visit : TrieVisit TrieData} {data : TrieData}
    (member : visit ∈ trieWalk table.communication) (record : visit.data = some data) :
    ∃ first rest, own visit.key log = first :: rest ∧ ∀ direction,
      data.at direction = tallyOf direction ({ first with direction := directionUpload } :: rest) := by
  obtain ⟨first, rest, packets, stored⟩ := books.visit member
  have same := Option.some.inj (record.symm.trans stored)
  refine ⟨first, rest, packets, fun direction => ?_⟩
  rw [same, recordOf_at]
  intro packet inside
  have later : packet ∈ own visit.key log := by rw [packets]; exact mem_cons_of_mem _ inside
  obtain ⟨-, arrival, inLog, rfl⟩ := mem_own later
  exact (books.shaped arrival inLog).known

/-- When the first packets are uploads, the record of a key sums up the packets of the key. -/
theorem Books.entry_right (books : Books table log)
    (uploads : StartsWithUploads (log.map Arrival.packet)) {visit : TrieVisit TrieData}
    {data : TrieData} (member : visit ∈ trieWalk table.communication)
    (record : visit.data = some data) (direction : Direction) :
    data.at direction = tallyOf direction (own visit.key log) := by
  obtain ⟨first, rest, packets, counted⟩ := books.entry_at member record
  have upload := uploads visit.key first (by rw [← own, packets]; rfl)
  rw [counted, packets, record_right_iff.mpr upload]

theorem mem_walk_keys (books : Books table log) (key : Key) :
    key ∈ (trieWalk table.communication).map TrieVisit.key ↔ own key log ≠ [] := by
  constructor
  · intro member
    obtain ⟨visit, inside, rfl⟩ := List.mem_map.mp member
    obtain ⟨first, rest, packets, -⟩ := books.visit inside
    simp [packets]
  · intro known
    obtain ⟨first, rest, packets⟩ := exists_cons_of_ne_nil known
    let visit : TrieVisit TrieData := ⟨key, key.length, recordOf (own key log)⟩
    have entry : (recordOf (own visit.key log)).map some = some visit.data := by
      simp [visit, packets, recordOf]
    exact List.mem_map.mpr ⟨visit, (books.represents.mem_walk visit).mpr ⟨rfl, entry⟩, rfl⟩

/-- These are the keys of a source in the table. -/
def sourceKeys (table : Table) (source : Bytes) : List Key :=
  ((trieWalk table.communication).map TrieVisit.key).filter fun key => keySource key = source

theorem records_map (table : Table) (source : Bytes) (value : TrieData → Tally)
    (expected : Key → Tally)
    (right : ∀ visit ∈ trieWalk table.communication, ∃ data, visit.data = some data ∧
      value data = expected visit.key) :
    (table.records source).map value = (sourceKeys table source).map expected := by
  unfold Table.records sourceKeys
  generalize trieWalk table.communication = walk at right
  induction walk with
  | nil => rfl
  | cons visit visits hypothesis =>
    obtain ⟨data, record, same⟩ := right visit (.head _)
    have rest := hypothesis fun other member => right other (.tail _ member)
    by_cases here : keySource visit.key = source
    · simp [here, record, same, rest]
    · simp [here, rest]

/-- The records of a source sum up the packets of the source. -/
theorem Books.source_sum (books : Books table log)
    (uploads : StartsWithUploads (log.map Arrival.packet)) (source : Bytes)
    (direction : Direction) :
    ((table.records source).map fun data => data.at direction).sum =
      tallyOf direction ((log.map Arrival.packet).filter fun packet => packet.source = source) := by
  have right : ∀ visit ∈ trieWalk table.communication, ∃ data, visit.data = some data ∧
      data.at direction = tallyOf direction (own visit.key log) := by
    intro visit member
    obtain ⟨first, rest, -, record⟩ := books.visit member
    exact ⟨_, record, books.entry_right uploads member record direction⟩
  have distinct : (sourceKeys table source).Nodup := books.represents.walk_nodup.filter _
  have classes := sum_classes distinct
    ((log.map Arrival.packet).filter fun packet => packet.direction = direction)
    Accepted.key Accepted.tally
  have expected (key : Key) : tallyOf direction (own key log) =
      ((((log.map Arrival.packet).filter fun packet => packet.direction = direction).filter
        fun packet => packet.key = key).map Accepted.tally).sum := by
    rw [tallyOf, own, ofKey, filter_comm]
  rw [records_map table source _ (fun key => tallyOf direction (own key log)) right]
  simp only [expected]
  rw [classes, tallyOf, filter_comm]
  congr 3
  apply filter_congr
  intro packet member
  obtain ⟨arrival, inLog, same⟩ := List.mem_map.mp member
  have keyed : own packet.key log ≠ [] :=
    ne_nil_of_mem (mem_filter.mpr ⟨List.mem_map.mpr ⟨arrival, inLog, same⟩, by simp⟩)
  have walked := (mem_walk_keys books packet.key).mpr keyed
  have shaped := (books.shaped arrival inLog).source
  rw [same] at shaped
  simp only [sourceKeys, mem_filter, walked, shaped, true_and, decide_eq_true_eq]

/-- The accounting is right exactly when the first packet of each key is an upload. -/
theorem Books.accounts_iff (books : Books plugin.table plugin.log) :
    Accounts plugin ↔ StartsWithUploads (plugin.log.map Arrival.packet) := by
  have all : (plugin.log.filter fun arrival => arrival.place = .entry) = plugin.log := by
    apply filter_eq_self.mpr
    intro arrival member
    exact decide_eq_true (books.places arrival member)
  constructor
  · intro accounts key first head
    rw [← own] at head
    have known : own key plugin.log ≠ [] := by
      rintro nothing
      simp [nothing] at head
    obtain ⟨visit, member, rfl⟩ := List.mem_map.mp ((mem_walk_keys books key).mpr known)
    obtain ⟨other, rest, -, record⟩ := books.visit member
    obtain ⟨front, rest, packets, counted⟩ := books.entry_at member record
    rw [packets, List.head?_cons, Option.some.injEq] at head
    subst head
    apply record_right_iff.mp
    intro direction
    rw [← packets, ← counted, accounts.entries visit member _ record, all]
  · intro uploads
    constructor
    case sources =>
      intro source direction
      rw [books.source_sum uploads, books.otherOf, add_zero]
    case entries =>
      intro visit member data record direction
      rw [all]
      exact books.entry_right uploads member record direction

end Accounts

section Runs

variable (width : Width) (order : ByteOrder)

/-- The filter and the accepted packets since the last dump depend on the events alone. -/
def accepting (state : List FilterRule × List Accepted) (event : Event) :
    List FilterRule × List Accepted :=
  match event with
  | .packet frame => (state.1, state.2 ++ (accept width order state.1 frame).toList)
  | .dump opened => (state.1, if opened then [] else state.2)
  | .configure filter => (filter, state.2)

def sinceDump (events : List Event) : List Accepted :=
  (events.foldl (accepting width order) ([], [])).2

def Plugin.accepted (plugin : Plugin) : List FilterRule × List Accepted :=
  (plugin.filter, plugin.log.map Arrival.packet)

/-- Each event leaves the books in order. -/
theorem Books.step {plugin : Plugin} (books : Books plugin.table plugin.log) (event : Event) :
    ∃ next, plugin.step width order event = .ok next ∧ Books next.table next.log ∧
      next.accepted = accepting width order plugin.accepted event := by
  cases event with
  | packet frame =>
    cases accepted : accept width order plugin.filter frame with
    | none =>
      refine ⟨plugin, by simp [Plugin.step, packetHandle, accepted], books, ?_⟩
      simp [accepting, Plugin.accepted, accepted]
    | some packet =>
      obtain ⟨table, counted, kept⟩ := books.count (accept_shaped accepted)
      refine ⟨_, by simp only [Plugin.step, packetHandle, accepted, counted]; rfl, kept, ?_⟩
      simp [accepting, Plugin.accepted, accepted]
  | dump opened =>
    cases opened with
    | false => exact ⟨plugin, rfl, books, rfl⟩
    | true =>
      obtain ⟨lines, dumped⟩ := books.dump
      exact ⟨_, by simp only [Plugin.step, Majordomo.dump, dumped]; rfl, books_fresh, rfl⟩
  | configure filter => exact ⟨_, rfl, books, rfl⟩

theorem Books.run {plugin : Plugin} (books : Books plugin.table plugin.log)
    (events : List Event) :
    ∃ next, plugin.run width order events = .ok next ∧ Books next.table next.log ∧
      next.accepted = events.foldl (accepting width order) plugin.accepted := by
  induction events generalizing plugin with
  | nil => exact ⟨plugin, rfl, books, rfl⟩
  | cons event events hypothesis =>
    obtain ⟨middle, stepped, kept, accepted⟩ := books.step width order event
    obtain ⟨next, ran, last, final⟩ := hypothesis kept
    refine ⟨next, ?_, last, ?_⟩
    · rw [Plugin.run, foldlM_cons, stepped]
      exact ran
    · rw [final, accepted, foldl_cons]

/-- The plugin survives every run, and its books are in order. -/
theorem run_books (events : List Event) :
    ∃ plugin, Plugin.init.run width order events = .ok plugin ∧ Books plugin.table plugin.log ∧
      plugin.log.map Arrival.packet = sinceDump width order events := by
  have start : Books Plugin.init.table Plugin.init.log := books_fresh
  obtain ⟨plugin, ran, books, accepted⟩ := start.run width order events
  exact ⟨plugin, ran, books, congrArg Prod.snd accepted⟩

/-- After any run the counters are right exactly when the first packet of each key since the last
dump is an upload. -/
theorem run_accounts (events : List Event) :
    ∃ plugin, Plugin.init.run width order events = .ok plugin ∧
      (Accounts plugin ↔ StartsWithUploads (sinceDump width order events)) := by
  obtain ⟨plugin, ran, books, packets⟩ := run_books width order events
  exact ⟨plugin, ran, by rw [books.accounts_iff, packets]⟩

/-- This frame carries an answer from the network to a local computer. -/
def answer : Frame where
  layer := letter 'E'
  direction := .outgoing
  addresses := ⟨[2, 0, 0, 0, 0, 1], [2, 0, 0, 0, 0, 2]⟩
  next := some
    { layer := letter 'I'
      ipProtocol := 4
      appProtocol := letter 'U'
      addresses := ⟨[192, 0, 2, 1], [10, 0, 0, 1]⟩
      ports := ⟨53, 5353⟩
      length := 60
      hdrLength := 28
      family := by decide }
  hardware := by decide

/-- A download that comes first is counted as an upload. -/
theorem answer_uploaded : ∃ plugin,
    Plugin.init.run .bits64 .little [.packet answer] = .ok plugin ∧ ¬ Accounts plugin := by
  obtain ⟨plugin, ran, books, packets⟩ := run_books .bits64 .little [.packet answer]
  refine ⟨plugin, ran, fun accounts => ?_⟩
  have uploads := books.accounts_iff.mp accounts
  rw [packets] at uploads
  let packet : Accepted := (sinceDump .bits64 .little [.packet answer]).headD
    ⟨[], [], .unknown, 0, 0⟩
  have upload := uploads packet.key packet (by decide)
  exact absurd upload (by decide)

end Runs

end Ucollect.Majordomo
