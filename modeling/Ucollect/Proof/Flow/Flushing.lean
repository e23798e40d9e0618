import Ucollect.Proof.Uplink.Timeouts
import Ucollect.Proof.Flow.Identity

/-
This file proves that the plugin has one pending timeout.
-/

namespace Ucollect.Flow
open Library Core List Option

/-- A scheduled flush is the only one of the plugin, and there is an identifier left for it. -/
structure Clock (timers : Timers Callback) (scheduled : Bool) (id : Nat) : Prop where
  distinct : timers.ids.Nodup
  room : timers.timeouts.length + 2 ≤ MemPool.Machine.wide.limit + if scheduled then 1 else 0
  pending : timers.pending .flush = if scheduled then [id] else []

variable {collector : Collector} {timers next : Timers Callback} {scheduled : Bool}
  {id other delay now : Nat}

theorem clock_start (counter : Nat) : Clock ⟨[], counter⟩ false id where
  distinct := nodup_nil
  room := show 2 ≤ MemPool.Machine.wide.limit by decide
  pending := rfl

theorem scheduleTimeout_clock (clock : Clock collector.timers false id)
    (idle : collector.timeoutScheduled = false) :
    ∃ timers timeoutId, scheduleTimeout collector =
        .ok { collector with timers, timeoutId, timeoutScheduled := true } ∧
      Clock timers true timeoutId := by
  have room := clock.room
  have few : collector.timers.timeouts.length < MemPool.Machine.wide.limit := by
    simp only [Bool.false_eq_true, if_false] at room
    omega
  obtain ⟨timeoutId, timers, added⟩ :=
    Timers.add_some few collector.now collector.timeout.toNat Callback.flush
  refine ⟨timers, timeoutId, ?_, Timers.add_nodup added clock.distinct, ?_, ?_⟩
  · rw [scheduleTimeout, idle, added]
    rfl
  · rw [Timers.add_length added]
    simp only [Bool.false_eq_true, if_false, if_true] at room ⊢
    omega
  · exact Timers.add_pending added clock.pending

theorem cancelTimeout_clock (clock : Clock collector.timers true collector.timeoutId)
    (scheduled : collector.timeoutScheduled = true) :
    ∃ timers, cancelTimeout collector = .ok { collector with timers, timeoutScheduled := false } ∧
      ∀ id, Clock timers false id := by
  have room := clock.room
  have pending : collector.timers.pending .flush = [collector.timeoutId] := clock.pending
  have present : collector.timeoutId ∈ collector.timers.ids := by
    have member : collector.timeoutId ∈ collector.timers.pending .flush := by
      rw [pending]
      exact mem_singleton_self _
    obtain ⟨timeout, inside, -, same⟩ := Timers.mem_pending.mp member
    exact List.mem_map.mpr ⟨timeout, inside, same⟩
  obtain ⟨timers, cancelled⟩ : ∃ timers,
      collector.timers.cancel collector.timeoutId = some timers := by
    rw [Timers.cancel, if_pos present]
    exact ⟨_, rfl⟩
  refine ⟨timers, ?_, fun id => ⟨Timers.cancel_nodup cancelled clock.distinct, ?_, ?_⟩⟩
  · rw [cancelTimeout, scheduled, cancelled]
    rfl
  · have shorter := Timers.cancel_length cancelled
    simp only [Bool.false_eq_true, if_false, if_true] at room ⊢
    omega
  · exact Timers.cancel_pending cancelled clock.distinct pending

theorem Clock.addOther (clock : Clock timers scheduled id)
    (room : timers.timeouts.length + 2 < MemPool.Machine.wide.limit)
    (added : timers.add .wide now delay .other = some (other, next)) : Clock next scheduled id where
  distinct := Timers.add_nodup added clock.distinct
  room := by
    rw [Timers.add_length added]
    omega
  pending := by
    rw [Timers.add_pending_other .flush added (by decide), clock.pending]

theorem Clock.cancelOther (clock : Clock timers scheduled id)
    (owned : other ∈ timers.pending .other) (cancelled : timers.cancel other = some next) :
    Clock next scheduled id where
  distinct := Timers.cancel_nodup cancelled clock.distinct
  room := by
    have room := clock.room
    have shorter := Timers.cancel_length cancelled
    omega
  pending := by
    have foreign : other ∉ timers.pending .flush := by
      intro member
      exact absurd (Timers.pending_unique clock.distinct member owned) (by decide)
    rw [Timers.cancel_pending_other .flush cancelled foreign, clock.pending]

/-- The timeout that fires leaves its place. -/
theorem Clock.fired (clock : Clock timers scheduled id) {timeout : Timeout Callback}
    {rest : List (Timeout Callback)} (first : timers.timeouts = timeout :: rest) :
    timeout.callback = .flush ∧ scheduled = true ∧
        (∀ id, Clock { timers with timeouts := rest } false id) ∨
      timeout.callback = .other ∧ Clock { timers with timeouts := rest } scheduled id := by
  have distinct : ({ timers with timeouts := rest } : Timers Callback).ids.Nodup := by
    have all := clock.distinct
    rw [Timers.ids, first] at all
    exact (nodup_cons.mp all).2
  have room := clock.room
  rw [first, length_cons] at room
  have pending := @Timers.pending_fired Callback timers .flush _ timeout rest first
  rw [clock.pending] at pending
  cases callback : timeout.callback with
  | flush =>
    rw [callback, if_pos rfl] at pending
    cases scheduled with
    | true =>
      left
      rw [if_pos rfl] at pending room
      refine ⟨rfl, rfl, fun id => ⟨distinct, ?_, (List.cons.inj pending).2.symm⟩⟩
      simp only [Bool.false_eq_true, if_false]
      omega
    | false => cases pending
  | other =>
    right
    have shorter : rest.length + 2 ≤ MemPool.Machine.wide.limit + if scheduled then 1 else 0 := by omega
    rw [callback] at pending
    exact ⟨rfl, distinct, shorter, pending.symm⟩

end Ucollect.Flow

/-
This file proves what a flush sends.
-/

namespace Ucollect.Flow
open Library Core List Option

/-- These are the records of the table with their keys. -/
def tableRecords (collector : Collector) : List (Key × Record) :=
  (trieWalk collector.trie).filterMap fun visit =>
    (visit.data.bind fun pointer => collector.flowPool[pointer]?).map fun record =>
      (visit.key, record)

/-- These bytes stand for a record in a message. -/
def flowBytes (flow : Record) : Bytes := ((flowRender (flowSize flow) flow).toOption).getD []

/-- The times of a record are in order in both directions. -/
def Record.Timed (record : Record) : Prop :=
  ∀ direction, record.firstTime.at direction ≤ record.lastTime.at direction

/-- The records count the packets of the group. -/
structure Tally (order : ByteOrder) (records : List (Key × Record)) (group : List Arrival) :
    Prop where
  distinct : (records.map Prod.fst).Nodup
  covers : ∀ key, key ∈ records.map Prod.fst ↔
    ∃ arrival ∈ group, flowKey order arrival.packet = .ok key
  accounts : ∀ key record, (key, record) ∈ records → Accounts record (own order key group)
  exact : ∀ key record, (key, record) ∈ records → ∀ direction, direction ≠ .unknown →
    (record.count.at direction).toNat = (heading direction (own order key group)).length
  timed : ∀ key record, (key, record) ∈ records → record.Timed

/-- No flow of the group has too many packets. -/
def Modest (order : ByteOrder) (group : List Arrival) : Prop :=
  ∀ key direction, direction ≠ .unknown →
    (heading direction (own order key group)).length < 2 ^ 31

section Message

variable {order : ByteOrder} {collector : Collector} {entries : FiniteMap Nat}
  {group : List Arrival} {record : Record}

theorem flowRender_flowSize (flow : Record) :
    flowRender (flowSize flow) flow = .ok (flowBytes flow) := by
  rw [flowBytes, flowRender, if_neg (not_not_intro rfl)]
  rfl

/-- The pointers of a table lead into the pool. -/
theorem loadFlows_eq {flowPool : List Record} {pointers : List (Option Nat)}
    (valid : ∀ pointer, some pointer ∈ pointers → pointer < flowPool.length) :
    loadFlows flowPool pointers =
      .ok (pointers.map fun pointer => pointer.bind fun pointer => flowPool[pointer]?) := by
  induction pointers with
  | nil => rfl
  | cons pointer pointers ih =>
    have rest := ih fun other member =>
      valid other (mem_cons_of_mem _ member)
    cases pointer with
    | none =>
      rw [loadFlows, rest]
      rfl
    | some pointer =>
      have inside := valid pointer mem_cons_self
      rw [loadFlows, rest, map_cons, bind_some, List.getElem?_eq_getElem inside]
      rfl

/-- Each shown flow is written at the place that the first walk left for it. -/
theorem formatFlows_eq (minPackets : UInt32) (flows : List (Option Record)) :
    formatFlows minPackets flows (flows.map (shownSize minPackets)) =
      .ok (((flows.filterMap id).filter fun flow => isShown minPackets (some flow)).flatMap flowBytes,
        (flows.map (shownSize minPackets)).sum) := by
  induction flows with
  | nil => rfl
  | cons flow flows ih =>
    cases flow with
    | none =>
      rw [map_cons, formatFlows, ih, sum_cons, filterMap_cons]
      simp only [shownSize, Nat.zero_add, id]
    | some flow =>
      by_cases visible : isShown minPackets (some flow) = true
      · have size : shownSize minPackets (some flow) = flowSize flow := by
          rw [shownSize, if_pos visible]
        rw [map_cons, formatFlows, if_pos visible, ih, size, flowRender_flowSize, sum_cons,
          filterMap_cons]
        simp only [id, filter_cons, visible, if_true, flatMap_cons]
        rfl
      · have size : shownSize minPackets (some flow) = 0 := by rw [shownSize, if_neg visible]
        rw [map_cons, formatFlows, if_neg visible, ih, size, sum_cons, filterMap_cons]
        simp only [id, filter_cons, visible, Bool.false_eq_true, if_false, Nat.zero_add]

theorem Accounts.count_toNat {packets : List Arrival} (accounts : Accounts record packets)
    {direction : Direction} (known : direction ≠ .unknown)
    (few : (heading direction packets).length < 2 ^ 31) :
    (record.count.at direction).toNat = (heading direction packets).length := by
  rw [accounts.count direction known, UInt32.toNat_ofNat', Nat.mod_eq_of_lt]
  omega

/-- Each packet has a direction. -/
theorem length_heading {packets : List Arrival}
    (known : ∀ arrival ∈ packets, arrival.packet.direction ≠ .unknown) :
    (heading .incoming packets).length + (heading .outgoing packets).length = packets.length := by
  induction packets with
  | nil => rfl
  | cons arrival packets ih =>
    rw [forall_mem_cons] at known
    have rest := ih known.2
    simp only [heading, filter_cons] at rest ⊢
    cases direction : arrival.packet.direction with
    | incoming => simp; omega
    | outgoing => simp; omega
    | unknown => exact absurd direction known.1

theorem own_known {key : Key} : ∀ arrival ∈ own order key group,
    arrival.packet.direction ≠ .unknown := by
  intro arrival member
  exact flowKey_known (toOption_eq_some.mp (of_decide_eq_true (mem_filter.mp member).2))

/-- A record with a packet is sent when one packet is enough. -/
theorem Accounts.shown {key : Key} {minPackets : UInt32}
    (accounts : Accounts record (own order key group)) (some : own order key group ≠ [])
    (modest : Modest order group) (enough : minPackets ≤ 1) :
    isShown minPackets (.some record) = true := by
  have first := accounts.count_toNat (by decide) (modest key .incoming (by decide))
  have second := accounts.count_toNat (by decide) (modest key .outgoing (by decide))
  have fewFirst := modest key .incoming (by decide)
  have fewSecond := modest key .outgoing (by decide)
  have total := @length_heading (own order key group) own_known
  have positive := length_pos_iff.mpr some
  simp only [Pair.at] at first second
  simp only [isShown, decide_eq_true_eq, UInt32.le_iff_toNat_le, UInt32.toNat_add, first,
    second] at enough ⊢
  rw [Nat.mod_eq_of_lt (by omega)]
  exact le_trans enough (by rw [total]; exact positive)

theorem Tabled.valid (tabled : Tabled order collector.trie collector.flowPool entries group)
    {pointer : Nat} (member : some pointer ∈ (trieWalk collector.trie).map TrieVisit.data) :
    pointer < collector.flowPool.length := by
  obtain ⟨visit, visited, data⟩ := List.mem_map.mp member
  have entry := ((tabled.represents.mem_walk visit).mp visited).2
  rw [data] at entry
  exact tabled.pointers.lt_length (by rw [entry, join_some])

/-- A record of the table counts the packets of its key. -/
theorem Tabled.accounted (tabled : Tabled order collector.trie collector.flowPool entries group)
    {key : Key} (member : (key, record) ∈ tableRecords collector) :
    ∃ pointer, (entries key).join = some pointer ∧ collector.flowPool[pointer]? = some record ∧
      Accounts record (own order key group) ∧ own order key group ≠ [] := by
  obtain ⟨visit, visited, mapped⟩ := mem_filterMap.mp member
  obtain ⟨found, loaded, same⟩ := map_eq_some_iff.mp mapped
  obtain ⟨pointer, data, loaded⟩ := bind_eq_some_iff.mp loaded
  have entry := ((tabled.represents.mem_walk visit).mp visited).2
  rw [data] at entry
  cases same
  have points : (entries visit.key).join = some pointer := by rw [entry, join_some]
  obtain ⟨record', loaded', accounts⟩ := tabled.pointers.points visit.key pointer points
  obtain rfl := Option.some.inj (loaded.symm.trans loaded')
  exact ⟨pointer, points, loaded, accounts, (tabled.pointers.owned visit.key).mp (by rw [points]; rfl)⟩

theorem keys_sublist {V W : Type} (visits : List V) (keyed : V → Key) (load : V → Option W) :
    List.Sublist ((visits.filterMap fun visit =>
      (load visit).map fun found => (keyed visit, found)).map Prod.fst) (visits.map keyed) := by
  induction visits with
  | nil => exact .slnil
  | cons visit visits ih =>
    rw [filterMap_cons, map_cons]
    cases load visit with
    | none => exact .cons _ ih
    | some found => exact .cons_cons _ ih

theorem mem_own {key : Key} : own order key group ≠ [] ↔
    ∃ arrival ∈ group, flowKey order arrival.packet = .ok key := by
  rw [← mem_keysOf, keysOf, mem_filterMap]
  simp only [toOption_eq_some]

section

variable (tabled : Tabled order collector.trie collector.flowPool entries group)
include tabled

/-- Each flow of the table has one record. -/
theorem Tabled.distinct : ((tableRecords collector).map Prod.fst).Nodup :=
  tabled.represents.walk_nodup.sublist (keys_sublist _ _ _)

theorem Tabled.covers (key : Key) :
    key ∈ (tableRecords collector).map Prod.fst ↔ own order key group ≠ [] := by
  constructor
  · intro member
    obtain ⟨⟨_, record⟩, inside, rfl⟩ := List.mem_map.mp member
    obtain ⟨_, _, _, _, some⟩ := tabled.accounted inside
    exact some
  · intro some
    obtain ⟨pointer, points⟩ := isSome_iff_exists.mp ((tabled.pointers.owned key).mpr some)
    obtain ⟨record, loaded, _⟩ := tabled.pointers.points key pointer points
    have visited : (⟨key, key.length, .some pointer⟩ : TrieVisit Nat) ∈ trieWalk collector.trie :=
      (tabled.represents.mem_walk _).mpr ⟨rfl, join_eq_some_iff.mp points⟩
    refine List.mem_map.mpr ⟨(key, record), mem_filterMap.mpr ⟨_, visited, ?_⟩, rfl⟩
    rw [bind_some, loaded, map_some]

/-- The table counts the packets since it was last cleared. -/
theorem Tabled.tally (modest : Modest order group)
    (punctual : ∀ record ∈ collector.flowPool, record.Timed) :
    Tally order (tableRecords collector) group where
  distinct := tabled.distinct
  covers key := by rw [tabled.covers, mem_own]
  accounts key record member := by
    obtain ⟨_, _, _, accounts, _⟩ := tabled.accounted member
    exact accounts
  exact key record member direction known := by
    obtain ⟨_, _, _, accounts, _⟩ := tabled.accounted member
    exact accounts.count_toNat known (modest key direction known)
  timed key record member := by
    obtain ⟨_, _, loaded, _, _⟩ := tabled.accounted member
    exact punctual record (mem_of_getElem? loaded)

end

theorem filterMap_loaded (collector : Collector) :
    (((trieWalk collector.trie).map TrieVisit.data).map fun pointer =>
        pointer.bind fun pointer => collector.flowPool[pointer]?).filterMap id =
      (tableRecords collector).map Prod.snd := by
  rw [filterMap_map, filterMap_map, tableRecords, map_filterMap]
  congr 1
  funext visit
  rw [Option.map_map]
  exact (Option.map_id' ..).symm

/-- These records of the table have enough packets. -/
def shownRecords (collector : Collector) : List (Key × Record) :=
  (tableRecords collector).filter fun entry => isShown collector.minPackets (some entry.2)

section

variable (tabled : Tabled order collector.trie collector.flowPool entries group)
include tabled

/-- The message has each record with enough packets once. -/
theorem flushMessage_eq :
    flushMessage collector =
      .ok (flushHeader collector ++ (shownRecords collector).flatMap fun entry =>
        flowBytes entry.2) := by
  have loaded := @loadFlows_eq collector.flowPool ((trieWalk collector.trie).map TrieVisit.data)
    fun pointer => tabled.valid
  have counted : (((trieWalk collector.trie).map TrieVisit.data).map fun pointer =>
      pointer.bind fun pointer => collector.flowPool[pointer]?).length =
        trieSize collector.trie := by
    rw [length_map, length_map, tabled.represents.length_walk]
  have formatted := formatFlows_eq collector.minPackets
    (((trieWalk collector.trie).map TrieVisit.data).map fun pointer =>
      pointer.bind fun pointer => collector.flowPool[pointer]?)
  rw [filterMap_loaded, List.filter_map, flatMap_map] at formatted
  rw [flushMessage, loaded]
  simp only [Except.bind, length_map (shownSize collector.minPackets), counted, formatted, ne_eq,
    not_true_eq_false, if_false]
  rfl

/-- One packet is enough for each record of the table. -/
theorem shownRecords_eq (modest : Modest order group) (enough : collector.minPackets ≤ 1) :
    shownRecords collector = tableRecords collector := by
  rw [shownRecords, filter_eq_self]
  rintro ⟨key, record⟩ inside
  obtain ⟨_, _, _, accounts, owned⟩ := tabled.accounted inside
  exact accounts.shown owned modest enough

/-- A flush does nothing, keeps the table, or clears it. -/
inductive Flushed (collector : Collector) (force : Bool) (outcome : Outcome) (message : Bytes) :
    Collector → Bool → Prop
  | skipped (unforced : force = false) (offline : collector.connected = false) :
      Flushed collector force outcome message collector false
  | kept (unforced : force = false)
      (refused : (collector.send message force outcome).2 = false) :
      Flushed collector force outcome message (collector.send message force outcome).1 false
  | cleared (gone : (collector.send message force outcome).2 = true ∨ force = true) :
      Flushed collector force outcome message (collector.send message force outcome).1.clear true

theorem flush_cases (force : Bool) (outcome : Outcome) :
    ∃ next flushed, flush collector force outcome = .ok (next, flushed) ∧
      Flushed collector force outcome (flushHeader collector ++
        (shownRecords collector).flatMap fun entry => flowBytes entry.2) next flushed := by
  have message := flushMessage_eq tabled
  rw [flush]
  split
  case isTrue offline =>
    rw [Bool.and_eq_true, Bool.not_eq_true', Bool.not_eq_true'] at offline
    exact ⟨_, _, rfl, .skipped offline.1 offline.2⟩
  case isFalse online =>
    rw [message]
    simp only [Except.map]
    split
    case isTrue refused =>
      rw [Bool.and_eq_true, Bool.not_eq_true', Bool.not_eq_true'] at refused
      exact ⟨_, _, rfl, .kept refused.2 refused.1⟩
    case isFalse gone =>
      rw [Bool.and_eq_true, Bool.not_eq_true', Bool.not_eq_true', not_and_or, Bool.not_eq_false,
        Bool.not_eq_false] at gone
      exact ⟨_, _, rfl, .cleared gone⟩

end

end Message

end Ucollect.Flow
