import Ucollect.Proof.Flow.Flushing

/-
This file proves that the plugin loses no packet and counts no packet twice.
-/

namespace Ucollect.Flow
open Library Core List Option Function

/-- A record of the pool is not ahead of the clock. -/
def Record.Punctual (record : Record) (now : Nat) : Prop :=
  ∀ direction, record.firstTime.at direction ≤ record.lastTime.at direction ∧
    record.lastTime.at direction ≤ now

/-- The message has the records of the group and nothing else. -/
def Ships (order : ByteOrder) (group : List Arrival) (sending : Sending) : Prop :=
  ∃ records confId now, Tally order records group ∧
    sending.message = letter 'D' :: (word32 confId ++ word64 now) ++
      records.flatMap fun entry => flowBytes entry.2

/-- These messages took the records out of the table. -/
def taken (log : List Sending) : List Sending :=
  log.filter fun sending =>
    sending.message.head? = some (letter 'D') && (sending.sent || sending.forced)

/-- The groups left the table one after another, and the current one is in it. -/
structure Ledger (order : ByteOrder) (collector : Collector) (groups : List (List Arrival))
    (current : List Arrival) (entries : FiniteMap Nat) : Prop where
  tabled : Tabled order collector.trie collector.flowPool entries current
  punctual : ∀ record ∈ collector.flowPool, record.Punctual collector.now
  shipped : List.Forall₂ (Ships order) groups (taken collector.log)
  minPackets : collector.minPackets ≤ 1

section Sending

variable {order : ByteOrder} {collector next : Collector} {groups : List (List Arrival)}
  {current : List Arrival} {entries : FiniteMap Nat} {message : Bytes} {force flushed : Bool}
  {outcome : Outcome}

/-- The other fields of the plugin do not matter for the table. -/
theorem Ledger.beside (ledger : Ledger order collector groups current entries)
    (trie : next.trie = collector.trie) (flowPool : next.flowPool = collector.flowPool)
    (now : collector.now ≤ next.now) (log : taken next.log = taken collector.log)
    (minPackets : next.minPackets ≤ 1) : Ledger order next groups current entries where
  tabled := by
    rw [trie, flowPool]
    exact ledger.tabled
  punctual := by
    rw [flowPool]
    intro record member direction
    obtain ⟨ordered, past⟩ := ledger.punctual record member direction
    exact ⟨ordered, le_trans past now⟩
  shipped := by
    rw [log]
    exact ledger.shipped
  minPackets

theorem taken_append (log : List Sending) (sending : Sending) :
    taken (log ++ [sending]) = taken log ++
      if (sending.message.head? = some (letter 'D') && (sending.sent || sending.forced)) = true then
        [sending] else [] := by
  rw [taken, filter_append, ← taken]
  congr 1
  simp only [filter_cons, filter_nil]

/-- A flush takes the current group out of the table or leaves it there. -/
structure AfterFlush (order : ByteOrder) (collector : Collector) (groups : List (List Arrival))
    (current : List Arrival) (entries : FiniteMap Nat) (next : Collector)
    (nextGroups : List (List Arrival)) (nextCurrent : List Arrival)
    (nextEntries : FiniteMap Nat) : Prop where
  ledger : Ledger order next nextGroups nextCurrent nextEntries
  kept : nextGroups.flatten ++ nextCurrent = groups.flatten ++ current
  either : nextEntries = entries ∧ nextCurrent = current ∨
    (nextEntries = fun _ => none) ∧ nextCurrent = []
  beside : ∃ trie flowPool timeoutMissed connected log, next =
    { collector with trie, flowPool, timeoutMissed, connected, log }

theorem Flushed.after (ledger : Ledger order collector groups current entries)
    (modest : Modest order current)
    (done : Flushed collector force outcome (flushHeader collector ++
      (tableRecords collector).flatMap fun entry => flowBytes entry.2) next flushed) :
    ∃ nextGroups nextCurrent nextEntries, AfterFlush order collector groups current entries next
      nextGroups nextCurrent nextEntries := by
  cases done with
  | skipped unforced offline =>
    exact ⟨groups, current, entries, ledger, rfl, .inl ⟨rfl, rfl⟩, _, _, _, _, _, rfl⟩
  | kept unforced refused =>
    refine ⟨groups, current, entries, ?_, rfl, .inl ⟨rfl, rfl⟩, _, _, _, _, _, rfl⟩
    refine ledger.beside rfl rfl (le_refl _) ?_ ledger.minPackets
    simp only [Collector.send] at refused ⊢
    rw [taken_append, refused, unforced, if_neg (by simp), append_nil]
  | cleared gone =>
    have tally := ledger.tabled.tally modest fun record member direction =>
      (ledger.punctual record member direction).1
    refine ⟨groups ++ [current], [], fun _ => none, ?_, ?_, .inr ⟨rfl, rfl⟩, _, _, _, _, _, rfl⟩
    · refine ⟨tabled_nil order, nofun, ?_, ledger.minPackets⟩
      simp only [Collector.send, Collector.clear] at gone ⊢
      have counts : (((flushHeader collector ++ (tableRecords collector).flatMap fun entry =>
          flowBytes entry.2).head? = some (letter 'D') : Bool) &&
            ((collector.connected && outcome == .delivered) || force)) = true := by
        rw [Bool.and_eq_true, Bool.or_eq_true]
        exact ⟨rfl, gone⟩
      rw [taken_append, if_pos counts]
      exact rel_append ledger.shipped
        (.cons ⟨tableRecords collector, collector.confId.toNat, collector.now, tally, rfl⟩ .nil)
    · rw [flatten_append, flatten_singleton, append_nil]

theorem Ledger.flush (ledger : Ledger order collector groups current entries)
    (modest : Modest order current) (force : Bool) (outcome : Outcome) :
    ∃ next flushed nextGroups nextCurrent nextEntries,
      flush collector force outcome = .ok (next, flushed) ∧
      AfterFlush order collector groups current entries next nextGroups nextCurrent
        nextEntries := by
  obtain ⟨next, flushed, ran, done⟩ := flush_cases ledger.tabled force outcome
  rw [shownRecords_eq ledger.tabled modest ledger.minPackets] at done
  obtain ⟨nextGroups, nextCurrent, nextEntries, after⟩ := done.after ledger modest
  exact ⟨next, flushed, nextGroups, nextCurrent, nextEntries, ran, after⟩

theorem Punctual.add {record : Record} {now : Nat} (punctual : record.Punctual now)
    (packet : Packet) : (record.add now packet).Punctual now := by
  intro direction
  have before := punctual direction
  cases heading : packet.direction <;> cases direction <;>
    simp only [Record.add, heading, Pair.change, Pair.at] at before ⊢
  all_goals first
    | exact before
    | (split <;> omega)

end Sending

/-- Between two events no entry waits for its record, and the timeout of the plugin is pending
exactly when there is a configuration. -/
structure Steady (order : ByteOrder) (collector : Collector) (groups : List (List Arrival))
    (current : List Arrival) (entries : FiniteMap Nat) : Prop where
  ledger : Ledger order collector groups current entries
  filled : Filled entries
  clock : Clock collector.timers collector.configured collector.timeoutId
  scheduled : collector.timeoutScheduled = collector.configured

/-- The counters of the group have not wrapped. -/
def Almost (order : ByteOrder) (group : List Arrival) : Prop :=
  ∀ key direction, direction ≠ .unknown →
    (heading direction (own order key group)).length ≤ 2 ^ 31

/-- The packets of the history are in the groups that left and in the table. -/
def Continues (order : ByteOrder) (history : List Arrival) (next : Collector) : Prop :=
  ∃ groups current entries, Steady order next groups current entries ∧
    groups.flatten ++ current = history ∧ Almost order current

section Steps

variable {order : ByteOrder} {collector next : Collector} {groups nextGroups : List (List Arrival)}
  {current nextCurrent : List Arrival} {entries nextEntries : FiniteMap Nat} {key : Key}
  {packet : Packet}

theorem Modest.almost (modest : Modest order current) : Almost order current :=
  fun key direction known => le_of_lt (modest key direction known)

theorem Modest.append (modest : Modest order current) (arrival : Arrival) :
    Almost order (current ++ [arrival]) := by
  intro key direction known
  have before := modest key direction known
  have shorter : (heading direction (own order key (current ++ [arrival]))).length ≤
      (heading direction (own order key current)).length + 1 := by
    rw [own_append]
    split
    · rw [heading_append, length_append]
      split
      · rfl
      · exact Nat.le_succ _
    · rw [append_nil]
      exact Nat.le_succ _
  omega

section

variable
  (after : AfterFlush order collector groups current entries next nextGroups nextCurrent nextEntries)
include after

theorem AfterFlush.filled (filled : Filled entries) : Filled nextEntries := by
  rcases after.either with ⟨rfl, -⟩ | ⟨rfl, -⟩
  · exact filled
  · exact nofun

theorem AfterFlush.modest (modest : Modest order current) : Modest order nextCurrent := by
  rcases after.either with ⟨-, rfl⟩ | ⟨-, rfl⟩
  · exact modest
  · exact fun _ _ _ => Nat.two_pow_pos 31

/-- A flush on its own keeps the plugin steady. -/
theorem AfterFlush.continues (steady : Steady order collector groups current entries)
    (modest : Modest order current) : Continues order (groups.flatten ++ current) next := by
  have filled := after.filled steady.filled
  have almost := (after.modest modest).almost
  obtain ⟨trie, flowPool, timeoutMissed, connected, log, rfl⟩ := after.beside
  exact ⟨nextGroups, nextCurrent, nextEntries,
    ⟨after.ledger, filled, steady.clock, steady.scheduled⟩, after.kept, almost⟩

end

theorem Steady.continues (steady : Steady order collector groups current entries)
    (modest : Modest order current) : Continues order (groups.flatten ++ current) collector :=
  ⟨groups, current, entries, steady, rfl, modest.almost⟩

/-- A table without room gets a new timeout. -/
theorem makeRoom_ledger (ledger : Ledger order collector groups current entries)
    (modest : Modest order current) (clock : Clock collector.timers true collector.timeoutId)
    (scheduled : collector.timeoutScheduled = true) (outcome : Outcome) :
    ∃ flushed timers timeoutId nextGroups nextCurrent nextEntries,
      makeRoom collector outcome =
        .ok { flushed with timers, timeoutId, timeoutScheduled := true } ∧
      AfterFlush order collector groups current entries flushed nextGroups nextCurrent
        nextEntries ∧ Clock timers true timeoutId := by
  obtain ⟨flushed, _, nextGroups, nextCurrent, nextEntries, ran, after⟩ :=
    ledger.flush modest ((2 * collector.maxFlows).toNat ≤ trieSize collector.trie) outcome
  have pending : Clock flushed.timers true flushed.timeoutId ∧ flushed.timeoutScheduled = true := by
    obtain ⟨trie, flowPool, timeoutMissed, connected, log, rfl⟩ := after.beside
    exact ⟨clock, scheduled⟩
  obtain ⟨cancelled, cancel, idle⟩ := cancelTimeout_clock pending.1 pending.2
  obtain ⟨timers, timeoutId, schedule, again⟩ := @scheduleTimeout_clock
    { flushed with timers := cancelled, timeoutScheduled := false } 0 (idle 0) rfl
  refine ⟨flushed, timers, timeoutId, nextGroups, nextCurrent, nextEntries, ?_, after, again⟩
  rw [makeRoom, ran]
  change (cancelTimeout flushed).bind scheduleTimeout = _
  rw [cancel]
  exact schedule

theorem punctual_concat {flowPool : List Record} {first : Record} {now : Nat}
    (punctual : ∀ record ∈ flowPool, record.Punctual now) (firstZero : first.firstTime = ⟨0, 0⟩)
    (lastZero : first.lastTime = ⟨0, 0⟩) :
    ∀ record ∈ flowPool ++ [first.add now packet], record.Punctual now := by
  intro record member
  rcases mem_append.mp member with old | new
  · exact punctual record old
  · obtain rfl := mem_singleton.mp new
    apply Punctual.add
    intro direction
    rw [firstZero, lastZero]
    cases direction <;> exact ⟨le_refl _, Nat.zero_le _⟩

/-- The first packet of a flow is counted in the record that it creates. -/
theorem createFlow_continues (ledger : Ledger order collector groups current entries)
    (modest : Modest order current) (others : ∀ other, other ≠ key → entries other ≠ some none)
    (clock : Clock collector.timers collector.configured collector.timeoutId)
    (scheduled : collector.timeoutScheduled = collector.configured)
    (rendered : flowKey order packet = .ok key) (missing : (entries key).join = none) :
    ∃ created pointer first, (indexFlow collector key).bind
        (fun (collector, slot) => createFlow collector slot packet) = .ok (created, pointer) ∧
      created.flowPool[pointer]? = some first ∧
      Continues order (groups.flatten ++ current ++ [⟨collector.now, packet⟩])
        { created with
          flowPool := created.flowPool.set pointer (first.add created.now packet) } := by
  obtain ⟨trie, first, created, firstZero, lastZero, counted⟩ :=
    createFlow_index ledger.tabled rendered missing
  refine ⟨_, _, first, created, List.getElem?_concat_length, groups,
    current ++ [⟨collector.now, packet⟩],
    update entries key (some (some collector.flowPool.length)),
    ⟨⟨?_, ?_, ledger.shipped, ledger.minPackets⟩, ?_, clock, scheduled⟩,
    (append_assoc _ _ _).symm, modest.append _⟩
  · rw [set_concat_length]
    exact counted
  · rw [set_concat_length]
    exact punctual_concat ledger.punctual firstZero lastZero
  · exact filled_update others _

/-- The packet is counted behind the flush that may have made room for it. -/
theorem countPacket_new (steady : Steady order collector groups current entries)
    (modest : Modest order current) (configured : collector.configured = true)
    (rendered : flowKey order packet = .ok key) (missing : (entries key).join = none)
    (outcome : Outcome) :
    ∃ next pointer, countPacket order collector packet outcome = .ok (next, pointer) ∧
      Continues order (groups.flatten ++ current ++ [⟨collector.now, packet⟩]) next := by
  obtain ⟨trie, slot, indexed, data, between, -⟩ :=
    steady.ledger.tabled.index (flowKey_shape rendered)
  rw [missing] at data
  by_cases full : collector.maxFlows.toNat ≤ trieSize trie
  · have clock := steady.clock
    have scheduled := steady.scheduled
    rw [configured] at clock scheduled
    have waiting : Ledger order { collector with trie } groups current
        (update entries key (some (entries key).join)) :=
      ⟨between, steady.ledger.punctual, steady.ledger.shipped, steady.ledger.minPackets⟩
    obtain ⟨flushed, timers, timeoutId, nextGroups, nextCurrent, nextEntries, room, after, again⟩ :=
      makeRoom_ledger waiting modest clock scheduled outcome
    have absent : (nextEntries key).join = none := by
      rcases after.either with ⟨rfl, -⟩ | ⟨rfl, -⟩
      · rw [join_update_join, missing]
      · rfl
    have others : ∀ other, other ≠ key → nextEntries other ≠ some none := by
      intro other different
      rcases after.either with ⟨rfl, -⟩ | ⟨rfl, -⟩
      · rw [update_of_ne different]
        exact steady.filled other
      · exact nofun
    have ledger : Ledger order { flushed with timers, timeoutId, timeoutScheduled := true }
        nextGroups nextCurrent nextEntries :=
      after.ledger.beside rfl rfl (le_refl _) rfl after.ledger.minPackets
    have kept : flushed.now = collector.now ∧ flushed.configured = true := by
      obtain ⟨_, _, _, _, _, rfl⟩ := after.beside
      exact ⟨rfl, configured⟩
    obtain ⟨created, pointer, first, ran, loaded, continues⟩ := createFlow_continues ledger
      (after.modest modest) others (by rw [kept.2]; exact again) kept.2.symm rendered absent
    rw [after.kept, kept.1] at continues
    refine ⟨_, pointer, countPacket_found rendered ?_ loaded, continues⟩
    rw [findFlow, indexed]
    simp only [Except.bind, data, if_pos full]
    rw [room]
    exact ran
  · obtain ⟨created, pointer, first, ran, loaded, continues⟩ := createFlow_continues steady.ledger
      modest (fun other _ => steady.filled other) steady.clock steady.scheduled rendered missing
    refine ⟨_, pointer, countPacket_found rendered ?_ loaded, continues⟩
    rw [← ran, findFlow, indexed]
    simp only [Except.bind, data, if_neg full]

theorem countPacket_old (steady : Steady order collector groups current entries)
    (modest : Modest order current) (rendered : flowKey order packet = .ok key) {pointer : Nat}
    (entry : (entries key).join = some pointer) (outcome : Outcome) :
    ∃ next pointer, countPacket order collector packet outcome = .ok (next, pointer) ∧
      Continues order (groups.flatten ++ current ++ [⟨collector.now, packet⟩]) next := by
  obtain ⟨trie, record, loaded, ran, counted⟩ :=
    countPacket_known steady.ledger.tabled rendered entry outcome
  refine ⟨_, pointer, ran, groups, current ++ [⟨collector.now, packet⟩], entries,
    ⟨⟨counted, ?_, steady.ledger.shipped, steady.ledger.minPackets⟩, steady.filled, steady.clock,
      steady.scheduled⟩, (append_assoc _ _ _).symm, modest.append _⟩
  intro changed member
  rcases mem_or_eq_of_mem_set member with old | rfl
  · exact steady.ledger.punctual changed old
  · exact Punctual.add (steady.ledger.punctual record (mem_of_getElem? loaded)) packet

end Steps

section Apply

variable {order : ByteOrder} {stores : Stores} {packet : Packet}

mutual

/-- The checks of the filter pass for a packet of known direction. -/
theorem apply_eq_some (known : packet.direction ≠ .unknown) :
    ∀ filter : Filter, ∃ value, filter.apply order stores packet = some value
  | .constant value => ⟨value, rfl⟩
  | .negation sub => by
    obtain ⟨value, applied⟩ := apply_eq_some known sub
    exact ⟨!value, by rw [Filter.apply, applied, map_some]⟩
  | .conjunction subfilters => applyAnd_eq_some known subfilters
  | .disjunction subfilters => applyOr_eq_some known subfilters
  | .address side trie => by
    obtain ⟨address, found⟩ := endpoint_eq_some known side packet.addresses
    exact ⟨_, by rw [Filter.apply, filterAddress, found, map_some]⟩
  | .port side trie => by
    obtain ⟨port, found⟩ := endpoint_eq_some known side packet.ports
    exact ⟨_, by rw [Filter.apply, filterPort, found, map_some]⟩
  | .differential side name store => ⟨_, rfl⟩
  | .range side v6 address mask => ⟨_, rfl⟩

theorem applyAnd_eq_some (known : packet.direction ≠ .unknown) :
    ∀ subfilters : List Filter, ∃ value, applyAnd order stores packet subfilters = some value
  | [] => ⟨true, rfl⟩
  | sub :: subfilters => by
    obtain ⟨value, applied⟩ := apply_eq_some known sub
    rw [applyAnd, applied]
    cases value with
    | true => exact applyAnd_eq_some known subfilters
    | false => exact ⟨false, rfl⟩

theorem applyOr_eq_some (known : packet.direction ≠ .unknown) :
    ∀ subfilters : List Filter, ∃ value, applyOr order stores packet subfilters = some value
  | [] => ⟨false, rfl⟩
  | sub :: subfilters => by
    obtain ⟨value, applied⟩ := apply_eq_some known sub
    rw [applyOr, applied]
    cases value with
    | true => exact ⟨true, rfl⟩
    | false => exact applyOr_eq_some known subfilters

end

end Apply

/-- These checks fail only for a message that is not well formed. -/
def Abort.malformed : Abort → Bool
  | .emptyMessage | .extraData | .shortConfig | .brokenFilter => true
  | _ => false

section Events

variable (order : ByteOrder)

/-- The filter accepts this packet of an event. -/
def Collector.accepted (collector : Collector) : Event → List Arrival
  | .packet captured stores _ =>
    match trackedPacket captured with
    | none => []
    | some packet =>
      if collector.configured && collector.filter.apply order stores packet == some true then
        [⟨collector.now, packet⟩]
      else []
  | _ => []

/-- The packets are accepted in the order of the events. -/
def Collector.acceptedRun (collector : Collector) : List Event → List Arrival
  | [] => []
  | event :: events =>
    collector.accepted order event ++
      match collector.step order event with
      | .error _ => []
      | .ok next => next.acceptedRun events

/-- One packet is enough for a flow to be sent. -/
def Frugal : Event → Prop
  | .message (code :: rest) _ => code = letter 'C' → configNumber rest 3 ≤ 1
  | _ => True

/-- A step goes on with the history, or the server sent a broken message. -/
def StepsTo (history : List Arrival) (result : Except Abort Collector) : Prop :=
  match result with
  | .error abort => abort.malformed = true
  | .ok next => Continues order history next

variable {order} {collector : Collector} {groups : List (List Arrival)} {current : List Arrival}
  {entries : FiniteMap Nat}

section

variable (steady : Steady order collector groups current entries)
include steady

theorem packetHandle_steps (modest : Modest order current) (captured : Captured) (stores : Stores)
    (outcome : Outcome) :
    StepsTo order (groups.flatten ++ current ++
        collector.accepted order (.packet captured stores outcome))
      (packetHandle order collector captured stores outcome) := by
  have same := steady.continues modest
  rw [← append_nil (groups.flatten ++ current)] at same
  rw [packetHandle, Collector.accepted]
  cases configured : collector.configured with
  | false =>
    cases trackedPacket captured with
    | none => exact same
    | some packet => exact same
  | true =>
    rw [if_pos rfl]
    cases tracked : trackedPacket captured with
    | none => exact same
    | some packet =>
      have known := tracked_known tracked
      obtain ⟨value, applied⟩ :=
        @apply_eq_some order stores packet known collector.filter
      obtain ⟨key, _, _, parts⟩ := keyParts order known
      simp only [applied]
      cases value with
      | false => exact same
      | true =>
        have counted : ∃ next pointer,
            countPacket order collector packet outcome = .ok (next, pointer) ∧
              Continues order (groups.flatten ++ current ++ [⟨collector.now, packet⟩])
                next := by
          cases entry : (entries key).join with
          | none => exact countPacket_new steady modest configured parts.rendered entry outcome
          | some pointer => exact countPacket_old steady modest parts.rendered entry outcome
        obtain ⟨next, pointer, ran, continues⟩ := counted
        rw [ran]
        exact continues

/-- The flush of a timeout is followed by the next timeout. -/
theorem timeoutFired_steps (modest : Modest order current)
    (configured : collector.configured = true) {timers : Timers Callback}
    (clock : ∀ id, Clock timers false id) (outcome : Outcome) :
    StepsTo order (groups.flatten ++ current)
      (timeoutFired { collector with timers } outcome) := by
  have ledger : Ledger order { collector with timers, timeoutScheduled := false } groups current
      entries := steady.ledger.beside rfl rfl (le_refl _) rfl steady.ledger.minPackets
  obtain ⟨flushed, sent, nextGroups, nextCurrent, nextEntries, ran, after⟩ :=
    ledger.flush modest collector.timeoutMissed outcome
  have idle : flushed.timers = timers ∧ flushed.timeoutScheduled = false ∧
      flushed.configured = true := by
    obtain ⟨_, _, _, _, _, rfl⟩ := after.beside
    exact ⟨rfl, rfl, configured⟩
  obtain ⟨again, timeoutId, schedule, pending⟩ := @scheduleTimeout_clock
    { flushed with timeoutMissed := !sent } 0 (by rw [idle.1]; exact clock 0) idle.2.1
  rw [timeoutFired, if_pos (steady.scheduled.trans configured), ran]
  change StepsTo order _ (scheduleTimeout { flushed with timeoutMissed := !sent })
  rw [schedule]
  refine ⟨nextGroups, nextCurrent, nextEntries, ⟨?_, after.filled steady.filled, ?_, ?_⟩,
    after.kept, (after.modest modest).almost⟩
  · exact after.ledger.beside rfl rfl (le_refl _) rfl after.ledger.minPackets
  · rw [idle.2.2]
    exact pending
  · exact idle.2.2.symm

theorem fireTimeout_steps (modest : Modest order current) (outcome : Outcome) :
    StepsTo order (groups.flatten ++ current) (fireTimeout collector outcome) := by
  unfold fireTimeout
  split
  · exact steady.continues modest
  · next timeout rest first =>
      split
      · rcases steady.clock.fired first with ⟨callback, configured, clock⟩ | ⟨callback, clock⟩
        · simp only [callback]
          exact timeoutFired_steps steady modest configured clock outcome
        · simp only [callback]
          exact ⟨groups, current, entries,
            ⟨steady.ledger.beside rfl rfl (le_refl _) rfl steady.ledger.minPackets, steady.filled,
              clock, steady.scheduled⟩, rfl, modest.almost⟩
      · exact steady.continues modest

/-- A flush without more keeps the history. -/
theorem flush_steps (modest : Modest order current) (outcome : Outcome) :
    StepsTo order (groups.flatten ++ current) ((flush collector false outcome).map Prod.fst) := by
  obtain ⟨flushed, sent, nextGroups, nextCurrent, nextEntries, ran, after⟩ :=
    steady.ledger.flush modest false outcome
  rw [ran]
  exact after.continues steady modest

/-- The old configuration leaves no timeout behind. -/
theorem replaceConfig_ledger (modest : Modest order current)
    (configured : collector.configured = true) (outcome : Outcome) :
    ∃ next nextGroups nextCurrent nextEntries, replaceConfig collector outcome = .ok next ∧
      Ledger order next nextGroups nextCurrent nextEntries ∧ Filled nextEntries ∧
      Modest order nextCurrent ∧
      nextGroups.flatten ++ nextCurrent = groups.flatten ++ current ∧
      Clock next.timers false next.timeoutId ∧ next.timeoutScheduled = false := by
  obtain ⟨flushed, sent, nextGroups, nextCurrent, nextEntries, ran, after⟩ :=
    steady.ledger.flush modest true outcome
  have pending : Clock flushed.timers true flushed.timeoutId ∧ flushed.timeoutScheduled = true := by
    have clock := steady.clock
    have scheduled := steady.scheduled
    rw [configured] at clock scheduled
    obtain ⟨_, _, _, _, _, rfl⟩ := after.beside
    exact ⟨clock, scheduled⟩
  obtain ⟨timers, cancel, idle⟩ := cancelTimeout_clock pending.1 pending.2
  refine ⟨{ flushed with timers, timeoutScheduled := false }, nextGroups, nextCurrent, nextEntries,
    ?_, after.ledger.beside rfl rfl (le_refl _) rfl after.ledger.minPackets,
    after.filled steady.filled, after.modest modest, after.kept, idle _, rfl⟩
  rw [replaceConfig, ran]
  exact cancel

theorem configure_steps (modest : Modest order current)
    (confId maxFlows timeout minPackets : UInt32) (filterDesc : Bytes) (outcome : Outcome)
    (frugal : minPackets ≤ 1) :
    StepsTo order (groups.flatten ++ current)
      (configure collector confId maxFlows timeout minPackets filterDesc outcome) := by
  unfold configure
  split
  · exact steady.continues modest
  · have ready : ∃ next nextGroups nextCurrent nextEntries,
        (if collector.configured then replaceConfig collector outcome else .ok collector) =
          .ok next ∧
        Ledger order next nextGroups nextCurrent nextEntries ∧ Filled nextEntries ∧
        Modest order nextCurrent ∧
        nextGroups.flatten ++ nextCurrent = groups.flatten ++ current ∧
        Clock next.timers false next.timeoutId ∧ next.timeoutScheduled = false := by
      cases configured : collector.configured with
      | true => exact replaceConfig_ledger steady modest configured outcome
      | false =>
        have clock := steady.clock
        rw [configured] at clock
        exact ⟨collector, groups, current, entries, rfl, steady.ledger, steady.filled, modest, rfl,
          clock, steady.scheduled.trans configured⟩
    obtain ⟨next, nextGroups, nextCurrent, nextEntries, replaced, ledger, filled, small, kept, clock,
      idle⟩ := ready
    rw [replaced]
    simp only [Except.bind, idle, Bool.false_eq_true, if_false]
    obtain ⟨timers, timeoutId, schedule, pending⟩ := @scheduleTimeout_clock
      { next with confId, maxFlows, timeout } next.timeoutId clock idle
    have scheduled := schedule
    simp only [idle] at scheduled
    rw [scheduled]
    cases filterParse filterDesc with
    | none => exact (rfl : Abort.brokenFilter.malformed = true)
    | some filter =>
      exact ⟨nextGroups, nextCurrent, nextEntries,
        ⟨ledger.beside rfl rfl (le_refl _) rfl frugal, filled, pending, rfl⟩, kept, small.almost⟩

theorem communicate_steps (modest : Modest order current) (data : Bytes) (outcome : Outcome)
    (frugal : Frugal (.message data outcome)) :
    StepsTo order (groups.flatten ++ current) (communicate collector data outcome) := by
  unfold communicate
  split
  · exact (rfl : Abort.emptyMessage.malformed = true)
  · next code rest =>
      split
      · split
        · exact (rfl : Abort.extraData.malformed = true)
        · exact flush_steps steady modest outcome
      · split
        · next config =>
            unfold configParse
            split
            · exact (rfl : Abort.shortConfig.malformed = true)
            · exact configure_steps steady modest _ _ _ _ _ outcome (frugal config)
        · exact steady.continues modest

end

/-- A request for the configuration is no message with flows. -/
theorem taken_request (log : List Sending) (forced sent : Bool) :
    taken (log ++ [⟨[letter 'C'], forced, sent⟩]) = taken log := by
  rw [taken_append, if_neg, append_nil]
  rw [Bool.and_eq_true, not_and_or]
  left
  exact of_decide_eq_false rfl

section

variable (steady : Steady order collector groups current entries)
include steady

theorem connectedCallback_steps (modest : Modest order current) (request outcome : Outcome) :
    StepsTo order (groups.flatten ++ current) (connectedCallback collector request outcome) := by
  have asked : Steady order (collector.send [letter 'C'] false request).1 groups current entries :=
    ⟨steady.ledger.beside rfl rfl (le_refl _) (taken_request _ _ _) steady.ledger.minPackets,
      steady.filled, steady.clock, steady.scheduled⟩
  unfold connectedCallback
  simp only
  split
  · exact asked.continues modest
  · split
    · exact flush_steps asked modest outcome
    · exact asked.continues modest

theorem otherTimeout_steps (modest : Modest order current) (after : Nat) :
    StepsTo order (groups.flatten ++ current) (otherTimeout collector after) := by
  unfold otherTimeout
  split
  · next room =>
      obtain ⟨id, timers, added⟩ :=
        Timers.add_some (show collector.timers.timeouts.length < MemPool.Machine.wide.limit by omega) collector.now
          after Callback.other
      rw [added]
      exact ⟨groups, current, entries,
        ⟨steady.ledger.beside rfl rfl (le_refl _) rfl steady.ledger.minPackets, steady.filled,
          steady.clock.addOther room added, steady.scheduled⟩, rfl, modest.almost⟩
  · exact steady.continues modest

theorem cancelOther_steps (modest : Modest order current) (id : Nat) :
    StepsTo order (groups.flatten ++ current) (cancelOther collector id) := by
  unfold cancelOther
  split
  · next owned =>
      obtain ⟨timeout, member, same⟩ := List.mem_map.mp owned
      have present : id ∈ collector.timers.ids :=
        List.mem_map.mpr ⟨timeout, (mem_filter.mp member).1, same⟩
      obtain ⟨timers, cancelled⟩ : ∃ timers, collector.timers.cancel id = some timers := by
        rw [Timers.cancel, if_pos present]
        exact ⟨_, rfl⟩
      rw [cancelled]
      exact ⟨groups, current, entries,
        ⟨steady.ledger.beside rfl rfl (le_refl _) rfl steady.ledger.minPackets, steady.filled,
          steady.clock.cancelOther owned cancelled, steady.scheduled⟩, rfl, modest.almost⟩
  · exact steady.continues modest

/-- Each event goes on with the history and adds the packet that it brings. -/
theorem step_steps (modest : Modest order current) (event : Event) (frugal : Frugal event) :
    StepsTo order (groups.flatten ++ current ++ collector.accepted order event)
      (collector.step order event) := by
  cases event with
  | packet captured stores outcome => exact packetHandle_steps steady modest captured stores outcome
  | fire outcome =>
    change StepsTo order (groups.flatten ++ current ++ []) _
    rw [append_nil]
    exact fireTimeout_steps steady modest outcome
  | message data outcome =>
    change StepsTo order (groups.flatten ++ current ++ []) _
    rw [append_nil]
    exact communicate_steps steady modest data outcome frugal
  | connect request outcome =>
    change StepsTo order (groups.flatten ++ current ++ []) _
    rw [append_nil]
    have online : Steady order { collector with connected := true } groups current entries :=
      ⟨steady.ledger.beside rfl rfl (le_refl _) rfl steady.ledger.minPackets, steady.filled,
        steady.clock, steady.scheduled⟩
    exact connectedCallback_steps online modest request outcome
  | addOther after =>
    change StepsTo order (groups.flatten ++ current ++ []) _
    rw [append_nil]
    exact otherTimeout_steps steady modest after
  | cancelOther id =>
    change StepsTo order (groups.flatten ++ current ++ []) _
    rw [append_nil]
    exact cancelOther_steps steady modest id
  | tick elapsed =>
    change StepsTo order (groups.flatten ++ current ++ []) _
    rw [append_nil]
    exact ⟨groups, current, entries,
      ⟨steady.ledger.beside rfl rfl (Nat.le_add_right _ _) rfl steady.ledger.minPackets,
        steady.filled, steady.clock, steady.scheduled⟩, rfl, modest.almost⟩
  | disconnect =>
    change StepsTo order (groups.flatten ++ current ++ []) _
    rw [append_nil]
    exact ⟨groups, current, entries,
      ⟨steady.ledger.beside rfl rfl (le_refl _) rfl steady.ledger.minPackets, steady.filled,
        steady.clock, steady.scheduled⟩, rfl, modest.almost⟩

end

end Events

/-- The counters of the records in the table are far from their limit. -/
def CountsBelow (collector : Collector) : Prop :=
  ∀ record ∈ collector.flowPool,
    record.count.first.toNat < 2 ^ 31 ∧ record.count.second.toNat < 2 ^ 31

instance (collector : Collector) : Decidable (CountsBelow collector) :=
  inferInstanceAs (Decidable (∀ record ∈ collector.flowPool,
    record.count.first.toNat < 2 ^ 31 ∧ record.count.second.toNat < 2 ^ 31))

/-- Each packet of the run is in one group that left with one message or in the table. -/
structure Conserved (order : ByteOrder) (start : Collector) (events : List Event)
    (final : Collector) (groups : List (List Arrival)) (current : List Arrival) : Prop where
  packets : groups.flatten ++ current = start.acceptedRun order events
  gone : List.Forall₂ (Ships order) groups (taken final.log)
  here : Tally order (tableRecords final) current
  filled : (tableRecords final).length = trieSize final.trie
  pending : final.configured = true → ∃ id, final.timers.pending .flush = [id]

section Runs

variable {order : ByteOrder} {collector : Collector} {groups : List (List Arrival)}
  {current : List Arrival} {entries : FiniteMap Nat}

theorem Tabled.modest (tabled : Tabled order collector.trie collector.flowPool entries current)
    (below : CountsBelow collector) (almost : Almost order current) : Modest order current := by
  intro key direction known
  by_cases empty : own order key current = []
  · rw [empty]
    exact Nat.two_pow_pos 31
  · obtain ⟨pointer, points⟩ :=
      isSome_iff_exists.mp ((tabled.pointers.owned key).mpr empty)
    obtain ⟨record, loaded, accounts⟩ := tabled.pointers.points key pointer points
    have limits := below record (mem_of_getElem? loaded)
    have small : (record.count.at direction).toNat < 2 ^ 31 := by
      cases direction with
      | incoming => exact limits.1
      | outgoing => exact limits.2
      | unknown => exact absurd rfl known
    have bound := almost key direction known
    rw [accounts.count direction known, UInt32.toNat_ofNat', Nat.mod_eq_of_lt (by omega)] at small
    exact small

theorem Tabled.length_records (tabled : Tabled order collector.trie collector.flowPool entries current)
    (filled : Filled entries) : (tableRecords collector).length = trieSize collector.trie := by
  rw [← tabled.represents.length_walk, tableRecords, filterMap_length_eq_length]
  intro visit visited
  have entry := ((tabled.represents.mem_walk visit).mp visited).2
  cases data : visit.data with
  | none =>
    rw [data] at entry
    exact absurd entry (filled visit.key)
  | some pointer =>
    have inside := tabled.valid (List.mem_map.mpr ⟨visit, visited, data⟩)
    rw [bind_some, List.getElem?_eq_getElem inside]
    rfl

theorem Steady.conserved {start : Collector} {events : List Event}
    (steady : Steady order collector groups current entries) (modest : Modest order current)
    (packets : groups.flatten ++ current = start.acceptedRun order events) :
    Conserved order start events collector groups current where
  packets
  gone := steady.ledger.shipped
  here := steady.ledger.tabled.tally modest fun record member direction =>
    (steady.ledger.punctual record member direction).1
  filled := steady.ledger.tabled.length_records steady.filled
  pending configured := by
    have pending := steady.clock.pending
    rw [configured, if_pos rfl] at pending
    exact ⟨_, pending⟩

theorem run_cons (collector : Collector) (event : Event) (events : List Event) :
    collector.run order (event :: events) =
      (collector.step order event).bind fun next => next.run order events := by
  rw [Collector.run, foldlM_cons]
  rfl

/-- A run goes on with the history, or it ends with a broken message. -/
theorem run_steady {events : List Event}
    (steady : Steady order collector groups current entries) (modest : Modest order current)
    (frugal : ∀ event ∈ events, Frugal event)
    (below : ∀ count state, collector.run order (events.take count) = .ok state →
      CountsBelow state) :
    (∃ abort, collector.run order events = .error abort ∧ abort.malformed = true) ∨
    ∃ final finalGroups finalCurrent finalEntries, collector.run order events = .ok final ∧
      Steady order final finalGroups finalCurrent finalEntries ∧ Modest order finalCurrent ∧
      finalGroups.flatten ++ finalCurrent =
        groups.flatten ++ current ++ collector.acceptedRun order events := by
  induction events generalizing collector groups current entries with
  | nil =>
    right
    exact ⟨collector, groups, current, entries, rfl, steady, modest, (append_nil _).symm⟩
  | cons event events ih =>
    rw [forall_mem_cons] at frugal
    have steps := step_steps steady modest event frugal.1
    rw [run_cons, Collector.acceptedRun]
    cases stepped : collector.step order event with
    | error abort =>
      rw [stepped] at steps
      exact .inl ⟨abort, rfl, steps⟩
    | ok next =>
      rw [stepped] at steps
      obtain ⟨nextGroups, nextCurrent, nextEntries, nextSteady, kept, almost⟩ := steps
      have belowNext : ∀ count state, next.run order (events.take count) = .ok state →
          CountsBelow state := by
        intro count state ran
        apply below (count + 1)
        rw [take_succ_cons, run_cons, stepped]
        exact ran
      have nextModest := nextSteady.ledger.tabled.modest (belowNext 0 next rfl) almost
      have rest := ih nextSteady nextModest frugal.2 belowNext
      rw [kept, append_assoc] at rest
      exact rest

/-- The plugin starts with an empty table. -/
theorem steady_start {counter now : Nat} {connected : Bool} {request outcome : Outcome}
    {start : Collector}
    (started : initCallback ⟨[], counter⟩ now connected request outcome = .ok start) :
    Steady order start [] [] fun _ => none := by
  cases started
  exact ⟨⟨tabled_nil order, nofun, .nil, show (0 : UInt32) ≤ 1 by decide⟩, nofun,
    clock_start counter, rfl⟩

/-- Every run conserves the packets, and only a broken message from the server fails a check. -/
theorem flow_conservation (order : ByteOrder) (counter now : Nat) (connected : Bool)
    (request outcome : Outcome) (start : Collector)
    (started : initCallback ⟨[], counter⟩ now connected request outcome = .ok start)
    (events : List Event) (frugal : ∀ event ∈ events, Frugal event)
    (below : ∀ count state, start.run order (events.take count) = .ok state →
      CountsBelow state) :
    (∃ abort, start.run order events = .error abort ∧ abort.malformed = true) ∨
    ∃ final groups current, start.run order events = .ok final ∧
      Conserved order start events final groups current := by
  have steady := @steady_start order counter now connected request outcome start started
  have modest : Modest order [] := fun _ _ _ => Nat.two_pow_pos 31
  rcases run_steady steady modest frugal below with failed | ran
  · exact .inl failed
  · right
    obtain ⟨final, groups, current, entries, ran, finalSteady, finalModest, packets⟩ := ran
    exact ⟨final, groups, current, ran, finalSteady.conserved finalModest packets⟩

end Runs

/-- A refused flush in the middle of an insert is followed by a forced one. -/
def busyEvents : List Event :=
  [.connect .delivered .delivered,
    .message (letter 'C' :: (word32 7 ++ word32 1 ++ word32 5000 ++ word32 1 ++ [letter 'T']))
      .delivered,
    .tick 20, .packet [none, some (probe 80)] (fun _ => []) .refused,
    .packet [some (probe 443)] (fun _ => []) .broken,
    .packet [some (answerOf (probe 80))] (fun _ => []) .delivered, .tick 5000, .fire .delivered]

def busyStart : Collector :=
  ((Collector.fresh ⟨[], 0⟩ 1000 false).send [letter 'C'] false .delivered).1

theorem countsBelow_of_all {result : Except Abort Collector}
    (all : (match result with
      | .error _ => true
      | .ok state => decide (CountsBelow state)) = true) (state : Collector)
    (ran : result = .ok state) : CountsBelow state := by
  rw [ran] at all
  exact of_decide_eq_true all

theorem busyEvents_below (count : Nat) (state : Collector)
    (ran : busyStart.run .little (busyEvents.take count) = .ok state) : CountsBelow state := by
  by_cases many : 8 ≤ count
  · rw [take_of_length_le many] at ran
    exact countsBelow_of_all (by decide +kernel) state ran
  · interval_cases count
    all_goals exact countsBelow_of_all (by decide +kernel) state ran

theorem busyEvents_frugal : ∀ event ∈ busyEvents, Frugal event := by
  have number : configNumber (word32 7 ++ word32 1 ++ word32 5000 ++ word32 1 ++ [letter 'T']) 3 ≤ 1 := by
    decide
  simp only [busyEvents, forall_mem_cons, Frugal, number, not_mem_nil, implies_true, and_true,
    false_imp_iff]

theorem flow_conservation_busy :
    (∃ abort, busyStart.run .little busyEvents = .error abort ∧ abort.malformed = true) ∨
    ∃ final groups current, busyStart.run .little busyEvents = .ok final ∧
      Conserved .little busyStart busyEvents final groups current :=
  flow_conservation .little 0 1000 false .delivered .delivered busyStart rfl busyEvents
    busyEvents_frugal busyEvents_below

end Ucollect.Flow
