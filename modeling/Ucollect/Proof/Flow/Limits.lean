import Ucollect.Library.Outcomes
import Ucollect.Proof.Flow.Conservation

/-
This file proves how many flows are held, when they are dropped and which flows are reported.
-/

namespace Ucollect.Flow
open Library Core List Option Function

/-- These messages have flows. -/
def reports (log : List Sending) : List Sending :=
  log.filter fun sending => sending.message.head? = some (letter 'D')

/-- A sent or forced report empties the table. -/
def gone (news : List Sending) : Bool := news.any fun sending => sending.sent || sending.forced

/-- The report has the records with enough packets in some order. -/
def Told (collector : Collector) (sending : Sending) : Prop :=
  ∃ records : List (Key × Record), records.Perm (shownRecords collector) ∧
    sending.message = flushHeader collector ++ records.flatMap fun entry => flowBytes entry.2

/-- This is the report that a flush hands to the uplink. -/
def reportOf (collector : Collector) (force : Bool) (outcome : Outcome) : Sending where
  message := flushHeader collector ++ (shownRecords collector).flatMap fun entry => flowBytes entry.2
  forced := force
  sent := collector.connected && outcome == .delivered

section Flush

variable {order : ByteOrder} {collector next : Collector} {entries : FiniteMap Nat}
  {group : List Arrival} {force flushed : Bool} {outcome : Outcome} {news : List Sending}

theorem reports_append (log : List Sending) (sending : Sending) :
    reports (log ++ [sending]) =
      reports log ++ if sending.message.head? = some (letter 'D') then [sending] else [] := by
  rw [reports, filter_append, ← reports]
  congr 1
  simp only [filter_cons, filter_nil, decide_eq_true_eq]

/-- A flush has one report or none. The table is empty behind it, or it is as before. -/
structure FlushDone (collector : Collector) (force : Bool) (outcome : Outcome) (next : Collector)
    (news : List Sending) : Prop where
  reported : reports next.log = reports collector.log ++ news
  told : ∀ sending ∈ news, Told collector sending
  forced : ∀ sending ∈ news, sending.forced = force ∧
    sending.sent = (collector.connected && outcome == .delivered)
  some : force = true → news ≠ []
  table : gone news = false ∧ next.trie = collector.trie ∧ next.flowPool = collector.flowPool ∨
    gone news = true ∧ next.trie = trieAlloc Nat ∧ next.flowPool = []
  beside : ∃ trie flowPool timeoutMissed connected log, next =
    { collector with trie, flowPool, timeoutMissed, connected, log }

theorem flush_done (tabled : Tabled order collector.trie collector.flowPool entries group)
    (force : Bool) (outcome : Outcome) :
    ∃ next flushed news, flush collector force outcome = .ok (next, flushed) ∧
      FlushDone collector force outcome next news := by
  obtain ⟨next, flushed, ran, done⟩ := flush_cases tabled force outcome
  have headed : (reportOf collector force outcome).message.head? = some (letter 'D') := rfl
  have told : Told collector (reportOf collector force outcome) :=
    ⟨shownRecords collector, .refl _, rfl⟩
  have logged : reports (collector.log ++ [reportOf collector force outcome]) =
      reports collector.log ++ [reportOf collector force outcome] := by
    rw [reports_append, if_pos headed]
  refine ⟨next, flushed, ?_⟩
  cases done with
  | skipped unforced offline =>
    refine ⟨[], ran, (append_nil _).symm, nofun, nofun, ?_, .inl ⟨rfl, rfl, rfl⟩, ?_⟩
    · simp [unforced]
    · exact ⟨_, _, _, _, _, rfl⟩
  | kept unforced refused =>
    refine ⟨[reportOf collector force outcome], ran, logged, by simpa using told,
      by simp [reportOf], by simp, .inl ⟨?_, rfl, rfl⟩, _, _, _, _, _, rfl⟩
    have refused : (collector.connected && outcome == .delivered) = false := refused
    simp [gone, reportOf, refused, unforced]
  | cleared left =>
    refine ⟨[reportOf collector force outcome], ran, logged, by simpa using told,
      by simp [reportOf], by simp, .inr ⟨?_, rfl, rfl⟩, _, _, _, _, _, rfl⟩
    have left : (collector.connected && outcome == .delivered) = true ∨ force = true := left
    simpa [gone, reportOf] using left

end Flush

/-- The table has the flows of the current packets, and they are not too many. -/
structure Held (order : ByteOrder) (collector : Collector) (current : List Arrival) : Prop where
  table : ∃ entries, Tabled order collector.trie collector.flowPool entries current ∧ Filled entries
  bounded : collector.flowPool.length ≤ max 1 (2 * collector.maxFlows.toNat - 1)
  idle : collector.configured = false → collector.flowPool = []

/-- A step sends its reports about the current packets, and then it counts the fresh ones. -/
structure Stepped (order : ByteOrder) (collector : Collector) (current fresh : List Arrival)
    (next : Collector) (news : List Sending) : Prop where
  reported : reports next.log = reports collector.log ++ news
  told : ∀ sending ∈ news, Told collector sending
  held : Held order next ((if gone news then [] else current) ++ fresh)

/-- Nothing changes that the flows depend on. -/
def Alike (collector next : Collector) : Prop :=
  ∃ timers timeoutId timeoutScheduled timeoutMissed connected log,
    reports log = reports collector.log ∧
      next = { collector with
        timers, timeoutId, timeoutScheduled, timeoutMissed, connected, log }

section Quiet

variable {order : ByteOrder} {collector middle next : Collector} {current : List Arrival}
  {news : List Sending} {force flushed : Bool} {outcome : Outcome}

theorem Alike.refl (collector : Collector) : Alike collector collector :=
  ⟨_, _, _, _, _, _, rfl, rfl⟩

theorem Alike.trans (first : Alike collector middle) (second : Alike middle next) :
    Alike collector next := by
  obtain ⟨_, _, _, _, _, _, same, rfl⟩ := first
  obtain ⟨_, _, _, _, _, _, again, rfl⟩ := second
  exact ⟨_, _, _, _, _, _, again.trans same, rfl⟩

theorem scheduleTimeout_alike (done : scheduleTimeout collector = .ok next) :
    Alike collector next := by
  unfold scheduleTimeout at done
  split at done
  · cases done
  · split at done
    · cases done
    · cases done
      exact ⟨_, _, _, _, _, _, rfl, rfl⟩

theorem cancelTimeout_alike (done : cancelTimeout collector = .ok next) :
    Alike collector next := by
  unfold cancelTimeout at done
  split at done
  · split at done
    · cases done
    · cases done
      exact ⟨_, _, _, _, _, _, rfl, rfl⟩
  · cases done

theorem Held.congr (held : Held order collector current) (trie : next.trie = collector.trie)
    (flowPool : next.flowPool = collector.flowPool) (maxFlows : next.maxFlows = collector.maxFlows)
    (configured : next.configured = collector.configured) : Held order next current where
  table := by simpa only [trie, flowPool] using held.table
  bounded := by simpa only [flowPool, maxFlows] using held.bounded
  idle := by simpa only [flowPool, configured] using held.idle

theorem held_empty (order : ByteOrder) {collector : Collector}
    (trie : collector.trie = trieAlloc Nat) (flowPool : collector.flowPool = []) :
    Held order collector [] where
  table := ⟨fun _ => none, by rw [trie, flowPool]; exact tabled_nil order, nofun⟩
  bounded := by simp [flowPool]
  idle _ := flowPool

/-- A flush leaves the limits alone. -/
theorem FlushDone.held (done : FlushDone collector force outcome next news)
    (held : Held order collector current) : Held order next (if gone news then [] else current) := by
  obtain ⟨gone, trie, flowPool⟩ | ⟨gone, trie, flowPool⟩ := done.table
  · obtain ⟨_, _, _, _, _, rfl⟩ := done.beside
    simpa [gone] using held.congr trie flowPool rfl rfl
  · simpa [gone] using held_empty order trie flowPool

theorem Alike.held (alike : Alike collector next) (held : Held order collector current) :
    Held order next current := by
  obtain ⟨_, _, _, _, _, _, _, rfl⟩ := alike
  exact held.congr rfl rfl rfl rfl

theorem Alike.stepped (alike : Alike collector next) (held : Held order collector current) :
    Stepped order collector current [] next [] where
  reported := by
    obtain ⟨_, _, _, _, _, _, same, rfl⟩ := alike
    rw [append_nil]
    exact same
  told := nofun
  held := by simpa [gone] using alike.held held

/-- A flush is a step on its own, whatever the timeouts and the connection are around it. -/
theorem flush_stepped {start : Collector} (held : Held order collector current)
    (before : Alike collector start) (ran : flush start force outcome = .ok (middle, flushed)) :
    ∃ news, FlushDone start force outcome middle news ∧
      ∀ next, Alike middle next → Stepped order collector current [] next news := by
  have same := before.held held
  obtain ⟨entries, tabled, -⟩ := same.table
  obtain ⟨other, flushed', news, ran', done⟩ := flush_done tabled force outcome
  cases ran.symm.trans ran'
  refine ⟨news, done, fun next after => ⟨?_, ?_, ?_⟩⟩
  · obtain ⟨_, _, _, _, _, _, logged, rfl⟩ := before
    obtain ⟨_, _, _, _, _, _, kept, rfl⟩ := after
    rw [kept, done.reported, logged]
  · obtain ⟨_, _, _, _, _, _, logged, rfl⟩ := before
    exact done.told
  · simpa using after.held (done.held same)

end Quiet

section Events

variable {order : ByteOrder} {collector next : Collector} {current : List Arrival}
  {outcome request : Outcome}

variable {start : Collector}

section

variable (held : Held order collector current)
include held

theorem timeoutFired_stepped (before : Alike collector start)
    (ran : timeoutFired start outcome = .ok next) :
    ∃ news, Stepped order collector current [] next news := by
  unfold timeoutFired at ran
  split at ran
  · obtain ⟨⟨middle, flushed⟩, cleared, scheduled⟩ := bind_returns ran
    obtain ⟨news, -, stepped⟩ :=
      flush_stepped held (before.trans ⟨_, _, _, _, _, _, rfl, rfl⟩) cleared
    have after := scheduleTimeout_alike scheduled
    exact ⟨news, stepped next (Alike.trans ⟨_, _, _, _, _, _, rfl, rfl⟩ after)⟩
  · cases ran

theorem fireTimeout_stepped (ran : fireTimeout collector outcome = .ok next) :
    ∃ news, Stepped order collector current [] next news := by
  unfold fireTimeout at ran
  split at ran
  · cases ran
    exact ⟨[], (Alike.refl _).stepped held⟩
  · split at ran
    · split at ran
      · exact timeoutFired_stepped held ⟨_, _, _, _, _, _, rfl, rfl⟩ ran
      · cases ran
        exact ⟨[], Alike.stepped ⟨_, _, _, _, _, _, rfl, rfl⟩ held⟩
    · cases ran
      exact ⟨[], (Alike.refl _).stepped held⟩

/-- A flush without more is a step. -/
theorem flushed_stepped (before : Alike collector start) (force : Bool)
    (ran : (flush start force outcome).map Prod.fst = .ok next) :
    ∃ news, Stepped order collector current [] next news := by
  cases cleared : flush start force outcome with
  | error abort =>
    rw [cleared] at ran
    cases ran
  | ok result =>
    rw [cleared] at ran
    cases ran
    obtain ⟨news, -, stepped⟩ := flush_stepped held before cleared
    exact ⟨news, stepped _ (.refl _)⟩

theorem connectedCallback_stepped (before : Alike collector start)
    (ran : connectedCallback start request outcome = .ok next) :
    ∃ news, Stepped order collector current [] next news := by
  have asked : Alike start (start.send [letter 'C'] false request).1 := by
    refine ⟨_, _, _, _, _, _, ?_, rfl⟩
    rw [reports_append, if_neg (show ¬[letter 'C'].head? = some (letter 'D') by decide), append_nil]
  unfold connectedCallback at ran
  dsimp only at ran
  split at ran
  · cases ran
    exact ⟨[], (before.trans asked).stepped held⟩
  · split at ran
    · exact flushed_stepped held (before.trans asked) false ran
    · cases ran
      exact ⟨[], (before.trans asked).stepped held⟩

end

theorem FlushDone.emptied {middle : Collector} {news : List Sending}
    (done : FlushDone start true outcome middle news) :
    gone news = true ∧ middle.trie = trieAlloc Nat ∧ middle.flowPool = [] := by
  obtain ⟨sending, others, rfl⟩ := exists_cons_of_ne_nil (done.some rfl)
  have forced := (done.forced sending mem_cons_self).1
  obtain ⟨kept, -⟩ | emptied := done.table
  · simp [gone, forced] at kept
  · exact emptied

/-- A new configuration starts with an empty table. -/
theorem replaceConfig_stepped (held : Held order collector current)
    (ran : (if collector.configured then replaceConfig collector outcome else .ok collector) =
      .ok start) :
    ∃ news, Stepped order collector current [] start news ∧ start.flowPool = [] := by
  cases configured : collector.configured with
  | false =>
    rw [configured] at ran
    cases ran
    exact ⟨[], (Alike.refl _).stepped held, held.idle configured⟩
  | true =>
    rw [configured, if_pos rfl] at ran
    obtain ⟨⟨middle, flushed⟩, cleared, cancelled⟩ := bind_returns ran
    obtain ⟨news, done, stepped⟩ := flush_stepped held (.refl _) cleared
    have after := cancelTimeout_alike cancelled
    have empty := done.emptied.2.2
    refine ⟨news, stepped start after, ?_⟩
    obtain ⟨_, _, _, _, _, _, _, rfl⟩ := after
    exact empty

theorem configure_stepped {confId maxFlows timeout minPackets : UInt32} {filterDesc : Bytes}
    (held : Held order collector current)
    (ran : configure collector confId maxFlows timeout minPackets filterDesc outcome = .ok next) :
    ∃ news, Stepped order collector current [] next news := by
  unfold configure at ran
  split at ran
  · cases ran
    exact ⟨[], (Alike.refl _).stepped held⟩
  · obtain ⟨start, replaced, ran⟩ := bind_returns ran
    obtain ⟨timed, scheduled, ran⟩ := bind_returns ran
    obtain ⟨news, stepped, empty⟩ := replaceConfig_stepped held replaced
    have alike : Alike { start with confId, maxFlows, timeout } timed := by
      split at scheduled
      · cases scheduled
        exact .refl _
      · exact scheduleTimeout_alike scheduled
    obtain ⟨_, _, _, _, _, _, logged, rfl⟩ := alike
    split at ran
    · cases ran
    · cases ran
      refine ⟨news, logged.trans stepped.reported, stepped.told, stepped.held.table, ?_, ?_⟩
      · simp [empty]
      · exact fun _ => empty

theorem communicate_stepped {data : Bytes} (held : Held order collector current)
    (ran : communicate collector data outcome = .ok next) :
    ∃ news, Stepped order collector current [] next news := by
  unfold communicate at ran
  split at ran
  · cases ran
  · split at ran
    · split at ran
      · cases ran
      · exact flushed_stepped held (.refl _) false ran
    · split at ran
      · unfold configParse at ran
        split at ran
        · cases ran
        · exact configure_stepped held ran
      · cases ran
        exact ⟨[], (Alike.refl _).stepped held⟩

end Events

section Packets

variable {order : ByteOrder} {collector next : Collector} {current : List Arrival}
  {entries : FiniteMap Nat} {key : Key} {record : Record} {packet : Packet} {trie : Trie Nat}
  {outcome : Outcome}

section

variable (tabled : Tabled order collector.trie collector.flowPool entries current)
include tabled

theorem mem_tableRecords :
    (key, record) ∈ tableRecords collector ↔
      ∃ pointer, (entries key).join = some pointer ∧
        collector.flowPool[pointer]? = some record := by
  constructor
  · intro member
    obtain ⟨pointer, points, loaded, -, -⟩ := tabled.accounted member
    exact ⟨pointer, points, loaded⟩
  · intro found
    obtain ⟨pointer, points, loaded⟩ := found
    have visited : (⟨key, key.length, some pointer⟩ : TrieVisit Nat) ∈ trieWalk collector.trie :=
      (tabled.represents.mem_walk _).mpr ⟨rfl, join_eq_some_iff.mp points⟩
    exact mem_filterMap.mpr ⟨_, visited, by simp [loaded]⟩

/-- An entry without a record is not seen, but it may change the order of the walk. -/
theorem shownRecords_perm
    (between : Tabled order trie collector.flowPool
      (update entries key (some (entries key).join)) current) :
    (shownRecords { collector with trie }).Perm (shownRecords collector) := by
  have between : Tabled order { collector with trie }.trie { collector with trie }.flowPool
      (update entries key (some (entries key).join)) current := between
  apply List.Perm.filter
  rw [perm_ext_iff_of_nodup between.distinct.of_map tabled.distinct.of_map]
  intro entry
  rw [mem_tableRecords tabled, mem_tableRecords between, join_update_join]

theorem Tabled.length_flowPool (filled : Filled entries) :
    trieSize collector.trie = collector.flowPool.length := by
  have walked := (tabled.walk_perm filled).length_eq
  rw [length_map, length_map, length_range] at walked
  rw [← walked, tabled.represents.length_walk]

/-- The entry that was just indexed counts for the limits. -/
theorem trieSize_index (filled : Filled entries) (rendered : flowKey order packet = .ok key)
    (missing : (entries key).join = none)
    (between : Tabled order trie collector.flowPool
      (update entries key (some (entries key).join)) current) :
    trieSize trie = collector.flowPool.length + 1 := by
  have single := @keysOf_singleton order key ⟨0, packet⟩ rendered
  have absent : key ∉ (keysOf order current).toFinset := by
    rw [List.mem_toFinset, mem_keysOf, ← tabled.pointers.owned, missing]
    simp
  rw [@Tabled.size_index order collector.trie collector.flowPool entries current key trie
    ⟨0, packet⟩ tabled filled rendered _ between.represents, ← tabled.length_flowPool filled,
    tabled.size_eq filled, keysOf_append, single, toFinset_append]
  rw [Finset.union_comm, toFinset_cons, toFinset_nil, Finset.insert_union, Finset.empty_union,
    Finset.card_insert_of_notMem absent]

end

/-- A new flow makes a forced flush, which the uplink does not take. -/
def Overdue (order : ByteOrder) (collector : Collector) (current : List Arrival) : Event → Prop
  | .packet captured stores outcome =>
    (∃ arrival ∈ collector.accepted order (.packet captured stores outcome),
      ∃ key, flowKey order arrival.packet = .ok key ∧ own order key current = []) ∧
    collector.maxFlows.toNat ≤ collector.flowPool.length + 1 ∧
    (2 * collector.maxFlows).toNat ≤ collector.flowPool.length + 1 ∧
    (collector.connected && outcome == .delivered) = false
  | _ => False

/-- The reports of the step are lost. -/
def Drops (news : List Sending) : Prop := ∃ sending ∈ news, sending.forced = true ∧ sending.sent = false

theorem length_set_add (flowPool : List Record) (first changed : Record) :
    ((flowPool ++ [first]).set flowPool.length changed).length = flowPool.length + 1 := by
  rw [length_set, length_append, length_singleton]

/-- The flow is created, and the first packet is counted. -/
theorem createFlow_held {found : Collector} {place pointer : Nat}
    (tabled : Tabled order collector.trie collector.flowPool entries current)
    (others : ∀ other, other ≠ key → entries other ≠ some none)
    (rendered : flowKey order packet = .ok key) (missing : (entries key).join = none)
    (room : collector.flowPool.length + 1 ≤ max 1 (2 * collector.maxFlows.toNat - 1))
    (configured : collector.configured = true)
    (located : (indexFlow collector key).bind
      (fun (collector, slot) => createFlow collector slot packet) = .ok (found, place))
    (counted : (match found.flowPool[place]? with
      | none => .error .dangling
      | some flow => .ok ({ found with
          flowPool := found.flowPool.set place (flow.add found.now packet) }, place)) =
        (.ok (next, pointer) : Except Abort (Collector × Nat))) :
    next.log = collector.log ∧ Held order next (current ++ [⟨collector.now, packet⟩]) := by
  obtain ⟨trie, first, created, -, -, after⟩ := createFlow_index tabled rendered missing
  cases located.symm.trans created
  simp only [List.getElem?_concat_length] at counted
  cases counted
  refine ⟨rfl, ⟨_, ?_, filled_update others collector.flowPool.length⟩, ?_, ?_⟩
  · rw [set_concat_length]
    exact after
  · rw [length_set_add]
    exact room
  · simp [configured]

/-- The code stops before the doubled limit, also when the doubled limit wraps. -/
theorem room_of_small {maxFlows : UInt32} {length : Nat}
    (small : length + 1 < maxFlows.toNat ∨ length + 1 < (2 * maxFlows).toNat) :
    length + 1 ≤ max 1 (2 * maxFlows.toNat - 1) := by
  have doubled : (2 * maxFlows).toNat ≤ 2 * maxFlows.toNat := by
    rw [UInt32.toNat_mul]
    exact Nat.mod_le _ _
  omega

/-- A full table is flushed by force from the doubled limit on. -/
theorem makeRoom_done {start : Collector}
    (tabled : Tabled order collector.trie collector.flowPool entries current)
    (ran : makeRoom collector outcome = .ok start) :
    ∃ middle news, FlushDone collector
        ((2 * collector.maxFlows).toNat ≤ trieSize collector.trie) outcome middle news ∧
      Alike middle start := by
  obtain ⟨⟨middle, flushed⟩, cleared, ran⟩ := bind_returns ran
  obtain ⟨cancelled, cancel, schedule⟩ := bind_returns ran
  obtain ⟨other, flushed', news, cleared', done⟩ := flush_done tabled
    ((2 * collector.maxFlows).toNat ≤ trieSize collector.trie) outcome
  cases cleared.symm.trans cleared'
  exact ⟨middle, news, done, (cancelTimeout_alike cancel).trans (scheduleTimeout_alike schedule)⟩

/-- A forced flush has a report, and the report is lost when the uplink does not take it. -/
theorem FlushDone.drops_iff {force : Bool} {news : List Sending}
    (done : FlushDone collector force outcome next news) :
    Drops news ↔ force = true ∧ (collector.connected && outcome == .delivered) = false := by
  constructor
  · intro drops
    obtain ⟨sending, member, forced, lost⟩ := drops
    obtain ⟨same, sent⟩ := done.forced sending member
    exact ⟨same.symm.trans forced, sent.symm.trans lost⟩
  · intro lost
    obtain ⟨sending, others, rfl⟩ := exists_cons_of_ne_nil (done.some lost.1)
    obtain ⟨same, sent⟩ := done.forced sending mem_cons_self
    exact ⟨sending, mem_cons_self, same.trans lost.1, sent.trans lost.2⟩

theorem countPacket_stepped (held : Held order collector current)
    (configured : collector.configured = true) (rendered : flowKey order packet = .ok key)
    {pointer : Nat} (ran : countPacket order collector packet outcome = .ok (next, pointer)) :
    ∃ news, Stepped order collector current [⟨collector.now, packet⟩] next news ∧
      (Drops news ↔ own order key current = [] ∧
        collector.maxFlows.toNat ≤ collector.flowPool.length + 1 ∧
        (2 * collector.maxFlows).toNat ≤ collector.flowPool.length + 1 ∧
        (collector.connected && outcome == .delivered) = false) := by
  obtain ⟨entries, tabled, filled⟩ := held.table
  have owned : own order key current = [] ↔ (entries key).join = none := by
    rw [← not_iff_not, ← ne_eq, ← tabled.pointers.owned, isSome_iff_ne_none]
  cases entry : (entries key).join with
  | some known =>
    obtain ⟨trie, record, loaded, counted, after⟩ :=
      countPacket_known tabled rendered entry outcome
    cases ran.symm.trans counted
    refine ⟨[], ⟨(append_nil _).symm, forall_mem_nil _, ⟨entries, ?_, filled⟩, ?_, ?_⟩, ?_⟩
    · simpa [gone] using after
    · simpa using held.bounded
    · simp [configured]
    · simp [Drops, owned, entry]
  | none =>
    obtain ⟨trie, slot, indexed, data, between, -⟩ := tabled.index (flowKey_shape rendered)
    have size := trieSize_index tabled filled rendered entry between
    rw [entry] at data
    rw [countPacket, rendered] at ran
    change (findFlow collector key packet outcome).bind _ = _ at ran
    obtain ⟨⟨found, place⟩, located, counted⟩ := bind_returns ran
    rw [findFlow, indexed] at located
    simp only [Except.bind, data, size] at located
    by_cases full : collector.maxFlows.toNat ≤ collector.flowPool.length + 1
    · rw [if_pos full] at located
      obtain ⟨start, room, located⟩ := bind_returns located
      have waiting : Tabled order { collector with trie }.trie { collector with trie }.flowPool
          (update entries key (some (entries key).join)) current := between
      obtain ⟨middle, news, done, alike⟩ := makeRoom_done waiting room
      rw [size] at done
      have told : ∀ sending ∈ news, Told collector sending := by
        intro sending member
        obtain ⟨records, same, message⟩ := done.told sending member
        exact ⟨records, same.trans (shownRecords_perm tabled between), message⟩
      have fields : start.now = collector.now ∧ start.configured = true ∧
          start.maxFlows = collector.maxFlows ∧ start.trie = middle.trie ∧
          start.flowPool = middle.flowPool ∧
          reports start.log = reports collector.log ++ news := by
        obtain ⟨_, _, _, _, _, beside⟩ := done.beside
        obtain ⟨_, _, _, _, _, _, same, rfl⟩ := alike
        rw [same, done.reported]
        subst beside
        exact ⟨rfl, configured, rfl, rfl, rfl, rfl⟩
      obtain ⟨now, ready, maxFlows, sameTrie, samePool, log⟩ := fields
      have roomy : start.flowPool.length + 1 ≤ max 1 (2 * start.maxFlows.toNat - 1) := by
        rw [maxFlows, samePool]
        obtain ⟨unforced, -, flowPool⟩ | ⟨-, -, flowPool⟩ := done.table
        · have flowPool : middle.flowPool = collector.flowPool := flowPool
          rw [flowPool]
          apply room_of_small
          by_contra large
          have forced : (2 * collector.maxFlows).toNat ≤ collector.flowPool.length + 1 := by omega
          obtain ⟨sending, others, rfl⟩ :=
            exists_cons_of_ne_nil (done.some (decide_eq_true forced))
          have same := (done.forced sending mem_cons_self).1.trans (decide_eq_true forced)
          simp [gone, same] at unforced
        · simp [flowPool]
      have indexes : ∃ startEntries, Tabled order start.trie start.flowPool startEntries
            (if gone news then [] else current) ∧
          (∀ other, other ≠ key → startEntries other ≠ some none) ∧
          (startEntries key).join = none := by
        rw [sameTrie, samePool]
        obtain ⟨kept, trie', flowPool⟩ | ⟨emptied, trie', flowPool⟩ := done.table
        · refine ⟨_, by rw [trie', flowPool, kept]; exact between, ?_, by simp [entry]⟩
          intro other different
          rw [update_of_ne different]
          exact filled other
        · exact ⟨fun _ => none, by rw [trie', flowPool, emptied]; exact tabled_nil order,
            fun _ _ => (some_ne_none _).symm, rfl⟩
      obtain ⟨startEntries, tabled', others, missing⟩ := indexes
      obtain ⟨logged, after⟩ := createFlow_held tabled' others rendered missing roomy ready
        located counted
      refine ⟨news, ⟨by rw [logged, log], told, by rw [← now]; exact after⟩, ?_⟩
      rw [done.drops_iff, owned, decide_eq_true_eq]
      simp [full, entry]
    · rw [if_neg full] at located
      have small := @room_of_small collector.maxFlows collector.flowPool.length (.inl (by omega))
      obtain ⟨log, after⟩ := createFlow_held tabled (fun other _ => filled other) rendered entry small
        configured (by rw [indexed]; exact located) counted
      refine ⟨[], ⟨by rw [log, append_nil], forall_mem_nil _, by simpa [gone] using after⟩, ?_⟩
      simp [Drops, full]

theorem packetHandle_stepped {captured : Captured} {stores : Stores}
    (held : Held order collector current)
    (ran : packetHandle order collector captured stores outcome = .ok next) :
    ∃ news, Stepped order collector current
        (collector.accepted order (.packet captured stores outcome)) next news ∧
      (Drops news ↔ Overdue order collector current (.packet captured stores outcome)) := by
  have idle : Stepped order collector current [] collector [] := (Alike.refl _).stepped held
  unfold packetHandle at ran
  unfold Overdue Collector.accepted
  dsimp only
  cases configured : collector.configured with
  | false =>
    rw [configured] at ran
    cases ran
    cases trackedPacket captured with
    | none => exact ⟨[], idle, by simp [Drops]⟩
    | some packet => exact ⟨[], idle, by simp [Drops]⟩
  | true =>
    rw [configured, if_pos rfl] at ran
    cases tracked : trackedPacket captured with
    | none =>
      rw [tracked] at ran
      cases ran
      exact ⟨[], idle, by simp [Drops]⟩
    | some packet =>
      rw [tracked] at ran
      cases applied : collector.filter.apply order stores packet with
      | none =>
        simp only [applied] at ran
        cases ran
      | some passed =>
        cases passed with
        | false =>
          simp only [applied] at ran ⊢
          cases ran
          exact ⟨[], idle, by simp [Drops]⟩
        | true =>
          simp only [applied] at ran ⊢
          obtain ⟨key, _, _, parts⟩ := keyParts order (tracked_known tracked)
          have rendered := parts.rendered
          cases counted : countPacket order collector packet outcome with
          | error abort =>
            rw [counted] at ran
            cases ran
          | ok result =>
            rw [counted] at ran
            cases ran
            obtain ⟨news, stepped, drops⟩ :=
              countPacket_stepped held configured rendered counted
            refine ⟨news, stepped, drops.trans ?_⟩
            simp [rendered]

end Packets

section Runs

variable {order : ByteOrder} {collector next : Collector} {current : List Arrival}

/-- These reports are new in the log. -/
def newReports (collector next : Collector) : List Sending :=
  (reports next.log).drop (reports collector.log).length

/-- The packets of a flow leave the table with a report and come in with an event. -/
def Collector.following (order : ByteOrder) (collector : Collector) (current : List Arrival)
    (event : Event) (next : Collector) : List Arrival :=
  (if gone (newReports collector next) then [] else current) ++ collector.accepted order event

/-- The run also tells the packets that the table should have. -/
def Collector.runWith (order : ByteOrder) (collector : Collector) (current : List Arrival) :
    List Event → Except Abort (Collector × List Arrival)
  | [] => .ok (collector, current)
  | event :: events =>
    (collector.step order event).bind fun next =>
      next.runWith order (collector.following order current event next) events

theorem step_stepped (held : Held order collector current) {event : Event}
    (ran : collector.step order event = .ok next) :
    ∃ news, Stepped order collector current (collector.accepted order event) next news ∧
      ((∃ captured stores outcome, event = .packet captured stores outcome) →
        (Drops news ↔ Overdue order collector current event)) := by
  cases event with
  | packet captured stores outcome =>
    obtain ⟨news, stepped, drops⟩ := packetHandle_stepped held ran
    exact ⟨news, stepped, fun _ => drops⟩
  | tick elapsed =>
    cases ran
    have ticked : Held order { collector with now := collector.now + elapsed } current :=
      held.congr rfl rfl rfl rfl
    refine ⟨[], ⟨(append_nil _).symm, nofun, ?_⟩, by simp⟩
    simpa [gone, Collector.accepted] using ticked
  | fire outcome =>
    obtain ⟨news, stepped⟩ := fireTimeout_stepped held ran
    exact ⟨news, stepped, by simp⟩
  | message data outcome =>
    obtain ⟨news, stepped⟩ := communicate_stepped held ran
    exact ⟨news, stepped, by simp⟩
  | connect request outcome =>
    obtain ⟨news, stepped⟩ :=
      connectedCallback_stepped held ⟨_, _, _, _, _, _, rfl, rfl⟩ ran
    exact ⟨news, stepped, by simp⟩
  | disconnect =>
    cases ran
    exact ⟨[], Alike.stepped ⟨_, _, _, _, _, _, rfl, rfl⟩ held, by simp⟩
  | addOther after =>
    have alike : Alike collector next := by
      change otherTimeout collector after = .ok next at ran
      unfold otherTimeout at ran
      split at ran
      · split at ran
        · cases ran
        · cases ran
          exact ⟨_, _, _, _, _, _, rfl, rfl⟩
      · cases ran
        exact .refl _
    exact ⟨[], alike.stepped held, by simp⟩
  | cancelOther id =>
    have alike : Alike collector next := by
      change cancelOther collector id = .ok next at ran
      unfold cancelOther at ran
      split at ran
      · split at ran
        · cases ran
        · cases ran
          exact ⟨_, _, _, _, _, _, rfl, rfl⟩
      · cases ran
        exact .refl _
    exact ⟨[], alike.stepped held, by simp⟩

theorem Stepped.newReports {fresh : List Arrival} {news : List Sending}
    (stepped : Stepped order collector current fresh next news) :
    newReports collector next = news := by
  rw [Flow.newReports, stepped.reported, drop_left]

theorem runWith_held {events : List Event} (held : Held order collector current)
    {final : Collector} {last : List Arrival}
    (ran : collector.runWith order current events = .ok (final, last)) : Held order final last := by
  induction events generalizing collector current with
  | nil =>
    cases ran
    exact held
  | cons event events ih =>
    obtain ⟨next, step, rest⟩ := bind_returns ran
    obtain ⟨news, stepped, -⟩ := step_stepped held step
    apply ih _ rest
    rw [Collector.following, stepped.newReports]
    exact stepped.held

end Runs

section Reports

variable {order : ByteOrder} {collector : Collector} {current : List Arrival}
  {entries : FiniteMap Nat} {key : Key} {record : Record} {sending : Sending}

/-- These records have min_packets packets at least, however many packets they count. -/
def exactRecords (order : ByteOrder) (collector : Collector) (current : List Arrival) :
    List (Key × Record) :=
  (tableRecords collector).filter fun entry =>
    collector.minPackets.toNat ≤ (own order entry.1 current).length

/-- The report has the flows with enough packets and no other flow. -/
def Exact (order : ByteOrder) (collector : Collector) (current : List Arrival)
    (sending : Sending) : Prop :=
  ∃ records : List (Key × Record), records.Perm (exactRecords order collector current) ∧
    sending.message = flushHeader collector ++ records.flatMap fun entry => flowBytes entry.2

/-- The sum of the counters has 32 bits. -/
theorem isShown_iff (tabled : Tabled order collector.trie collector.flowPool entries current)
    (member : (key, record) ∈ tableRecords collector) (minPackets : UInt32) :
    isShown minPackets (some record) = true ↔
      minPackets.toNat ≤ (own order key current).length % 2 ^ 32 := by
  obtain ⟨_, _, _, accounts, _⟩ := tabled.accounted member
  have first := accounts.count .incoming (by decide)
  have second := accounts.count .outgoing (by decide)
  have total := @length_heading (own order key current) own_known
  simp only [Pair.at] at first second
  rw [isShown, decide_eq_true_eq, first, second, ← UInt32.ofNat_add, total, UInt32.le_iff_toNat_le,
    UInt32.toNat_ofNat']

theorem flowBytes_pos (record : Record) : 0 < (flowBytes record).length := by
  have rendered := flowRender_flowSize record
  rw [flowRender, if_neg (not_not_intro rfl)] at rendered
  rw [← Except.ok.inj rendered, length_cons]
  exact Nat.succ_pos _

theorem length_records {first second : List (Key × Record)} (same : first.Perm second) :
    (first.flatMap fun entry => flowBytes entry.2).length =
      (second.map fun entry => (flowBytes entry.2).length).sum := by
  rw [length_flatMap, (same.map _).sum_eq]

/-- The shown records are some of the exact ones. -/
theorem shownRecords_hidden
    (tabled : Tabled order collector.trie collector.flowPool entries current) :
    (shownRecords collector ++ (exactRecords order collector current).filter fun entry =>
      !isShown collector.minPackets (some entry.2)).Perm (exactRecords order collector current) := by
  have same : shownRecords collector = (exactRecords order collector current).filter fun entry =>
      isShown collector.minPackets (some entry.2) := by
    rw [exactRecords, List.filter_filter]
    apply filter_congr
    intro entry member
    have seen := isShown_iff tabled member collector.minPackets
    have less := Nat.mod_le (own order entry.1 current).length (2 ^ 32)
    by_cases shown : isShown collector.minPackets (some entry.2) = true
    · have enough : collector.minPackets.toNat ≤ (own order entry.1 current).length := by
        have := seen.mp shown
        omega
      simp [shown, enough]
    · simp [shown]
  rw [same]
  exact filter_append_perm _ _

/-- A report is exact when no counter has wrapped below the limit. -/
theorem exact_iff (tabled : Tabled order collector.trie collector.flowPool entries current)
    (told : Told collector sending) :
    Exact order collector current sending ↔ ∀ key,
      (own order key current).length < 2 ^ 32 ∨
        collector.minPackets.toNat ≤ (own order key current).length % 2 ^ 32 := by
  constructor
  · intro exact key
    by_contra wrapped
    rw [not_or, not_lt, not_le] at wrapped
    have some : own order key current ≠ [] := by
      apply ne_nil_of_length_pos
      omega
    obtain ⟨⟨found, record⟩, member, same⟩ := List.mem_map.mp ((tabled.covers key).mpr some)
    obtain rfl : found = key := same
    have hidden : (found, record) ∈ (exactRecords order collector current).filter fun entry =>
        !isShown collector.minPackets (.some entry.2) := by
      have unseen := (isShown_iff tabled member collector.minPackets).not.mpr (by omega)
      have below := collector.minPackets.toNat_lt
      simp only [exactRecords, mem_filter, decide_eq_true_eq, Bool.not_eq_true', member, true_and]
      exact ⟨by omega, by simpa using unseen⟩
    have split := shownRecords_hidden tabled
    obtain ⟨records, perm, message⟩ := told
    obtain ⟨others, perm', message'⟩ := exact
    have lengths := congrArg List.length (append_cancel_left (message.symm.trans message'))
    have among : (flowBytes record).length ∈ ((exactRecords order collector current).filter fun entry =>
        !isShown collector.minPackets (.some entry.2)).map fun entry => (flowBytes entry.2).length :=
      List.mem_map.mpr ⟨(found, record), hidden, rfl⟩
    have more := single_le_sum (fun _ _ => Nat.zero_le _) _ among
    have positive := flowBytes_pos record
    rw [length_records perm, length_records perm', ← (split.map _).sum_eq, map_append,
      sum_append] at lengths
    omega
  · intro counted
    have same : shownRecords collector = exactRecords order collector current := by
      apply filter_congr
      intro entry member
      rw [Bool.eq_iff_iff, isShown_iff tabled member, decide_eq_true_eq]
      have count := counted entry.1
      have below := collector.minPackets.toNat_lt
      obtain small | enough := count
      · rw [Nat.mod_eq_of_lt small]
      · have less := Nat.mod_le (own order entry.1 current).length (2 ^ 32)
        omega
    obtain ⟨records, perm, message⟩ := told
    exact ⟨records, same ▸ perm, message⟩

end Reports

/-- A packet loses flows only when twice as many flows as the limit are held. -/
def Late (collector : Collector) (event : Event) (next : Collector) : Prop :=
  (∃ captured stores outcome, event = .packet captured stores outcome) →
    Drops (newReports collector next) → collector.flowPool ≠ [] →
      2 * collector.maxFlows.toNat ≤ collector.flowPool.length

/-- The table has one record for each flow of the packets. -/
structure Records (order : ByteOrder) (collector : Collector) (current : List Arrival) : Prop where
  distinct : ((tableRecords collector).map Prod.fst).Nodup
  covers : ∀ key, key ∈ (tableRecords collector).map Prod.fst ↔ own order key current ≠ []
  length : (tableRecords collector).length = collector.flowPool.length

section Limits

variable {order : ByteOrder} {collector next start : Collector} {current : List Arrival} {event : Event}

theorem Held.records (held : Held order collector current) : Records order collector current := by
  obtain ⟨entries, tabled, filled⟩ := held.table
  exact ⟨tabled.distinct, tabled.covers,
    (tabled.length_records filled).trans (tabled.length_flowPool filled)⟩

/-- The forced flush comes one flow before the doubled limit, or even earlier. -/
theorem late_iff (held : Held order collector current)
    (ran : collector.step order event = .ok next) :
    Late collector event next ↔
      ¬(collector.maxFlows ≠ 0 ∧ Overdue order collector current event) := by
  obtain ⟨news, stepped, drops⟩ := step_stepped held ran
  unfold Late
  rw [stepped.newReports]
  have bounded := held.bounded
  constructor
  · rintro late ⟨limit, overdue⟩
    cases event with
    | packet captured stores outcome =>
      have doubled : (2 * collector.maxFlows).toNat = 2 * collector.maxFlows.toNat % 2 ^ 32 := by
        rw [UInt32.toNat_mul]
        rfl
      have positive : collector.maxFlows.toNat ≠ 0 := fun zero =>
        limit (UInt32.toNat_inj.mp zero)
      have full := overdue.2.1
      have forced := overdue.2.2.1
      have below := collector.maxFlows.toNat_lt
      have some : collector.flowPool ≠ [] := by
        apply ne_nil_of_length_pos
        omega
      have held := late ⟨_, _, _, rfl⟩ ((drops ⟨_, _, _, rfl⟩).mpr overdue) some
      omega
    | _ => exact overdue
  · intro early packet dropped some
    have overdue := (drops packet).mp dropped
    have limit : collector.maxFlows = 0 := by
      by_contra limit
      exact early ⟨limit, overdue⟩
    rw [limit]
    exact Nat.zero_le _

/-- The plugin starts without flows. -/
theorem held_start {counter now : Nat} {connected : Bool} {request outcome : Outcome}
    (started : initCallback ⟨[], counter⟩ now connected request outcome = .ok start) :
    Held order start [] := by
  cases started
  exact held_empty order rfl rfl

end Limits

/-- In every state of a run the flows are at most twice the limit. A packet drops flows too early when
the limit is not zero and the uplink does not take a forced flush. A report is exact when no number of
packets is too large for its 32 bits. -/
theorem limits_exact (order : ByteOrder) (counter now : Nat) (connected : Bool)
    (request outcome : Outcome) (start : Collector)
    (started : initCallback ⟨[], counter⟩ now connected request outcome = .ok start)
    (events : List Event) (collector : Collector) (current : List Arrival)
    (reached : start.runWith order [] events = .ok (collector, current)) :
    Records order collector current ∧
    collector.flowPool.length ≤ max 1 (2 * collector.maxFlows.toNat) ∧
    ∀ event next, collector.step order event = .ok next →
      (Late collector event next ↔
        ¬(collector.maxFlows ≠ 0 ∧ Overdue order collector current event)) ∧
      ∀ sending ∈ newReports collector next, Exact order collector current sending ↔
        ∀ key, (own order key current).length < 2 ^ 32 ∨
          collector.minPackets.toNat ≤ (own order key current).length % 2 ^ 32 := by
  have held := runWith_held (@held_start order start counter now connected request outcome started) reached
  have bounded := held.bounded
  refine ⟨held.records, by omega, fun event next ran => ⟨late_iff held ran, ?_⟩⟩
  obtain ⟨entries, tabled, -⟩ := held.table
  obtain ⟨news, stepped, -⟩ := step_stepped held ran
  rw [stepped.newReports]
  exact fun sending member => exact_iff tabled (stepped.told sending member)

instance (news : List Sending) : Decidable (Drops news) :=
  inferInstanceAs (Decidable (∃ sending ∈ news, sending.forced = true ∧ sending.sent = false))

/-- The limit is one flow, and the first flow is there. -/
def narrowEvents : List Event :=
  [.connect .delivered .delivered,
    .message (letter 'C' :: (word32 7 ++ word32 1 ++ word32 5000 ++ word32 1 ++ [letter 'T']))
      .delivered,
    .disconnect, .tick 20, .packet [some (probe 80)] (fun _ => []) .refused]

theorem narrowEvents_run :
    ∃ collector current, busyStart.runWith .little [] narrowEvents = .ok (collector, current) ∧
      collector.flowPool.length = 1 ∧ collector.maxFlows = 1 ∧
      ∃ next, collector.step .little (.packet [some (probe 443)] (fun _ => []) .refused) = .ok next ∧
        Drops (newReports collector next) := by
  have whole : ((busyStart.runWith .little [] narrowEvents).toOption.any fun state =>
      (state.1.step .little (.packet [some (probe 443)] (fun _ => []) .refused)).toOption.any
        fun next => decide (state.1.flowPool.length = 1 ∧ state.1.maxFlows = 1 ∧
          Drops (newReports state.1 next))) = true := by decide +kernel
  cases ran : busyStart.runWith .little [] narrowEvents with
  | error abort =>
    rw [ran] at whole
    cases whole
  | ok state =>
    obtain ⟨collector, current⟩ := state
    rw [ran] at whole
    change (collector.step .little _).toOption.any _ = true at whole
    cases stepped : collector.step .little
        (.packet [some (probe 443)] (fun _ => []) .refused) with
    | error abort =>
      rw [stepped] at whole
      cases whole
    | ok next =>
      rw [stepped] at whole
      obtain ⟨length, limit, drops⟩ := of_decide_eq_true whole
      exact ⟨collector, current, rfl, length, limit, next, stepped, drops⟩

theorem limits_exact_sample :
    ∃ collector current, busyStart.runWith .little [] narrowEvents = .ok (collector, current) ∧
      Records .little collector current ∧
      collector.flowPool.length ≤ max 1 (2 * collector.maxFlows.toNat) ∧
      ∀ event next, collector.step .little event = .ok next →
        (Late collector event next ↔
          ¬(collector.maxFlows ≠ 0 ∧ Overdue .little collector current event)) ∧
        ∀ sending ∈ newReports collector next, Exact .little collector current sending ↔
          ∀ key, (own .little key current).length < 2 ^ 32 ∨
            collector.minPackets.toNat ≤ (own .little key current).length % 2 ^ 32 := by
  obtain ⟨collector, current, ran, -⟩ := narrowEvents_run
  exact ⟨collector, current, ran, limits_exact .little 0 1000 false .delivered .delivered busyStart rfl
    narrowEvents collector current ran⟩

/-- The second flow drops the first one, although two flows are twice the limit. -/
theorem limits_exact_not :
    initCallback ⟨[], 0⟩ 1000 false .delivered .delivered = .ok busyStart ∧
    ∃ collector current, busyStart.runWith .little [] narrowEvents = .ok (collector, current) ∧
      ∃ next, collector.step .little (.packet [some (probe 443)] (fun _ => []) .refused) = .ok next ∧
        ¬Late collector (.packet [some (probe 443)] (fun _ => []) .refused) next := by
  obtain ⟨collector, current, ran, length, limit, next, stepped, drops⟩ := narrowEvents_run
  refine ⟨rfl, collector, current, ran, next, stepped, fun late => ?_⟩
  have early := late ⟨_, _, _, rfl⟩ drops (by
    apply ne_nil_of_length_pos
    omega)
  rw [length, limit] at early
  exact absurd early (by decide)

end Ucollect.Flow
