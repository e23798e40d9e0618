import Ucollect.Proof.Flow.Table

/-
This file proves that packets share a record exactly when they have the same identity.
-/

namespace Ucollect.Flow
open Library Core List Option Function

/-- The trie has the keys of the group, and a key may have no record yet. -/
structure Tabled (order : ByteOrder) (trie : Trie Nat) (flowPool : List Record)
    (entries : FiniteMap Nat) (group : List Arrival) : Prop where
  represents : trie.Represents entries
  shaped : ∀ key, (entries key).isSome = true → FlowKey key
  pointers : Pointers order (fun key => (entries key).join) flowPool group

/-- No entry waits for its record. -/
def Filled (entries : FiniteMap Nat) : Prop := ∀ key, entries key ≠ some none

section Index

variable {order : ByteOrder} {trie : Trie Nat} {flowPool : List Record} {entries : FiniteMap Nat}
  {group : List Arrival} {key : Key} {packet : Packet} {collector : Collector}
  {pointer slot : Nat} {record first : Record}

theorem tabled_nil (order : ByteOrder) : Tabled order (trieAlloc Nat) [] (fun _ => none) [] :=
  ⟨trieAlloc_represents, nofun, pointers_nil order⟩

theorem join_update_join (entries : FiniteMap Nat) (key other : Key) :
    (update entries key (some (entries key).join) other).join = (entries other).join := by
  by_cases same : other = key
  · rw [same, update_self, join_some]
  · rw [update_of_ne same]

theorem shaped_update {value : Option Nat}
    (shaped : ∀ key, (entries key).isSome = true → FlowKey key) (shape : FlowKey key) (other : Key)
    (known : (update entries key (some value) other).isSome = true) : FlowKey other := by
  by_cases same : other = key
  · exact same ▸ shape
  · rw [update_of_ne same] at known
    exact shaped other known

/-- The index of a key does not change the records. -/
theorem Tabled.index (tabled : Tabled order collector.trie collector.flowPool entries group)
    (shape : FlowKey key) :
    ∃ trie slot, indexFlow collector key = .ok ({ collector with trie }, slot) ∧
      trie.memory.data slot = (entries key).join ∧
      Tabled order trie collector.flowPool
        (update entries key (some (entries key).join)) group ∧
      ∀ value, (trie.store slot value).Represents (update entries key (some value)) := by
  have uncut : ¬ CutsEdge collector.trie.root.keys key := by
    apply FlowKey.not_cutsEdge _ shape
    intro other member
    exact tabled.shaped other ((tabled.represents.mem_keys_iff other).mp member)
  obtain ⟨trie, slot, indexed, data, represents, stores⟩ :=
    tabled.represents.index_slot key fun _ => uncut
  have pointers : Pointers order
      (fun other => (update entries key (some (entries key).join) other).join)
      collector.flowPool group := by
    rw [funext (join_update_join entries key)]
    exact tabled.pointers
  exact ⟨trie, slot, by rw [indexFlow, indexed], data,
    ⟨represents, shaped_update tabled.shaped shape, pointers⟩, stores⟩

theorem filled_update (filled : ∀ other, other ≠ key → entries other ≠ some none) (pointer : Nat) :
    Filled (update entries key (some (some pointer))) := by
  intro other
  by_cases same : other = key
  · rw [same, update_self]
    exact fun null => by cases null
  · rw [update_of_ne same]
    exact filled other same

theorem update_of_join (known : (entries key).join = some pointer) :
    update entries key (some (entries key).join) = entries := by
  have eq : some (entries key).join = entries key := by
    rw [known]
    exact (join_eq_some_iff.mp known).symm
  rw [eq, update_eq_self]

theorem Tabled.count (tabled : Tabled order trie flowPool entries group)
    (rendered : flowKey order packet = .ok key) (points : (entries key).join = some pointer)
    (found : flowPool[pointer]? = some record) (now : Nat) :
    Tabled order trie (flowPool.set pointer (record.add now packet)) entries
      (group ++ [⟨now, packet⟩]) :=
  ⟨tabled.represents, tabled.shaped, tabled.pointers.count rendered points found⟩

theorem Tabled.create {next : Trie Nat} (tabled : Tabled order trie flowPool entries group)
    (rendered : flowKey order packet = .ok key) (missing : (entries key).join = none)
    (stores : ∀ value, (next.store slot value).Represents
      (update entries key (some value)))
    (parsed : flowParse packet = some first) (now : Nat) :
    Tabled order (next.store slot (some flowPool.length)) (flowPool ++ [first.add now packet])
      (update entries key (some (some flowPool.length))) (group ++ [⟨now, packet⟩]) := by
  refine ⟨stores _, shaped_update tabled.shaped (flowKey_shape rendered), ?_⟩
  have created := @Pointers.create order _ flowPool group key packet now first tabled.pointers
    rendered missing parsed
  have joined : (fun other =>
      (update entries key (some (some flowPool.length)) other).join) =
        update (fun other => (entries other).join) key (some flowPool.length) := by
    funext other
    by_cases same : other = key
    · rw [same, update_self, update_self, join_some]
    · rw [update_of_ne same, update_of_ne same]
  rw [joined]
  exact created

/-- A new record stands behind the others. -/
theorem set_concat_length (record changed : Record) :
    (flowPool ++ [record]).set flowPool.length changed = flowPool ++ [changed] := by
  rw [set_append_right _ _ (le_refl _), Nat.sub_self, set_cons_zero]

end Index

section Keys

variable {order : ByteOrder} {trie : Trie Nat} {flowPool : List Record} {entries : FiniteMap Nat}
  {group : List Arrival} {key : Key}

/-- These are the keys of the packets of the group. -/
def keysOf (order : ByteOrder) (group : List Arrival) : List Key :=
  group.filterMap fun arrival => (flowKey order arrival.packet).toOption

theorem mem_keysOf : key ∈ keysOf order group ↔ own order key group ≠ [] := by
  rw [keysOf, mem_filterMap, own, ne_eq, filter_eq_nil_iff]
  push Not
  simp only [decide_eq_true_eq]

theorem toOption_eq_some {result : Except Abort Key} :
    result.toOption = some key ↔ result = .ok key := by
  cases result with
  | error abort => exact iff_of_false nofun nofun
  | ok found => exact ⟨fun same => congrArg _ (Option.some.inj same), fun same => by rw [same]; rfl⟩

theorem keysOf_singleton {arrival : Arrival} (rendered : flowKey order arrival.packet = .ok key) :
    keysOf order [arrival] = [key] := by
  simp only [keysOf, filterMap_cons, filterMap_nil, rendered]
  rfl

theorem keysOf_append (first second : List Arrival) :
    keysOf order (first ++ second) = keysOf order first ++ keysOf order second :=
  filterMap_append

/-- As many keys as identities are in a group of packets with known direction. -/
theorem card_keysOf (known : ∀ arrival ∈ group, arrival.packet.direction ≠ .unknown) :
    (keysOf order group).toFinset.card =
      (group.map fun arrival => identity arrival.packet).toFinset.card := by
  induction group with
  | nil => rfl
  | cons arrival group ih =>
    rw [forall_mem_cons] at known
    obtain ⟨key, addresses, ports, parts⟩ := keyParts order known.1
    have cons : keysOf order (arrival :: group) = key :: keysOf order group := by
      rw [← singleton_append, keysOf_append, keysOf_singleton parts.rendered]
      rfl
    have same : key ∈ (keysOf order group).toFinset ↔ identity arrival.packet ∈
        (group.map fun arrival => identity arrival.packet).toFinset := by
      rw [List.mem_toFinset, List.mem_toFinset, keysOf, mem_filterMap, List.mem_map]
      constructor
      · rintro ⟨other, member, rendered⟩
        have equal := (flowKey_eq_iff (toOption_eq_some.mp rendered) parts.rendered).mp rfl
        exact ⟨other, member, equal⟩
      · rintro ⟨other, member, equal⟩
        obtain ⟨otherKey, _, _, otherParts⟩ := keyParts order (known.2 other member)
        have keys := (flowKey_eq_iff otherParts.rendered parts.rendered).mpr equal
        exact ⟨other, member, toOption_eq_some.mpr (keys ▸ otherParts.rendered)⟩
    rw [cons, toFinset_cons, map_cons, toFinset_cons, Finset.card_insert_eq_ite,
      Finset.card_insert_eq_ite, ih known.2]
    exact if_congr same rfl rfl

theorem Tabled.isSome_iff (tabled : Tabled order trie flowPool entries group)
    (filled : Filled entries) (key : Key) :
    (entries key).isSome = true ↔ key ∈ keysOf order group := by
  rw [mem_keysOf, ← tabled.pointers.owned]
  cases entry : entries key with
  | none => rfl
  | some value =>
    cases value with
    | none => exact absurd entry (filled key)
    | some pointer => rfl

theorem Tabled.size_eq (tabled : Tabled order trie flowPool entries group)
    (filled : Filled entries) : trieSize trie = (keysOf order group).toFinset.card := by
  apply tabled.represents.size_eq
  intro key
  rw [List.mem_toFinset, tabled.isSome_iff filled]

/-- The entry without a record counts too. -/
theorem Tabled.size_index {next : Trie Nat} {arrival : Arrival}
    (tabled : Tabled order trie flowPool entries group) (filled : Filled entries)
    (rendered : flowKey order arrival.packet = .ok key) {value : Option Nat}
    (represents : next.Represents (update entries key (some value))) :
    trieSize next = (keysOf order (group ++ [arrival])).toFinset.card := by
  apply represents.size_eq
  intro other
  rw [List.mem_toFinset, keysOf_append, keysOf_singleton rendered, mem_append, mem_singleton,
    ← tabled.isSome_iff filled]
  by_cases same : other = key
  · rw [same, update_self]
    exact iff_of_true (.inr rfl) rfl
  · rw [update_of_ne same]
    exact or_iff_left same

end Keys

section Collect

variable {order : ByteOrder} {collector : Collector} {entries : FiniteMap Nat}
  {group : List Arrival} {key : Key} {packet : Packet}

/-- A packet is counted in one record, and the other pointers stay. -/
structure Counted (order : ByteOrder) (collector : Collector) (entries : FiniteMap Nat)
    (group : List Arrival) (key : Key) (pointer : Nat) (next : Collector)
    (nextEntries : FiniteMap Nat) : Prop where
  tabled : Tabled order next.trie next.flowPool nextEntries group
  filled : Filled nextEntries
  points : (nextEntries key).join = some pointer
  kept : ∀ other place, (entries other).join = some place → (nextEntries other).join = some place
  maxFlows : next.maxFlows = collector.maxFlows

theorem countPacket_found {next : Collector} {pointer : Nat} {record : Record} {outcome : Outcome}
    (rendered : flowKey order packet = .ok key)
    (found : findFlow collector key packet outcome = .ok (next, pointer))
    (loaded : next.flowPool[pointer]? = some record) :
    countPacket order collector packet outcome = .ok ({ next with
      flowPool := next.flowPool.set pointer (record.add next.now packet) }, pointer) := by
  rw [countPacket, rendered]
  change (findFlow collector key packet outcome).bind _ = _
  rw [found]
  simp only [Except.bind, loaded]

/-- A packet of a known flow needs no room. -/
theorem countPacket_known (tabled : Tabled order collector.trie collector.flowPool entries group)
    (rendered : flowKey order packet = .ok key) {pointer : Nat}
    (entry : (entries key).join = some pointer) (outcome : Outcome) :
    ∃ trie record, collector.flowPool[pointer]? = some record ∧
      countPacket order collector packet outcome = .ok ({ collector with
        trie
        flowPool := collector.flowPool.set pointer (record.add collector.now packet) }, pointer) ∧
      Tabled order trie (collector.flowPool.set pointer (record.add collector.now packet)) entries
        (group ++ [⟨collector.now, packet⟩]) := by
  obtain ⟨trie, slot, indexed, data, between, -⟩ := tabled.index (flowKey_shape rendered)
  obtain ⟨record, loaded, -⟩ := tabled.pointers.points key pointer entry
  rw [update_of_join entry] at between
  rw [entry] at data
  refine ⟨trie, record, loaded, ?_, between.count rendered entry loaded collector.now⟩
  have found : findFlow collector key packet outcome = .ok ({ collector with trie }, pointer) := by
    rw [findFlow, indexed]
    simp only [Except.bind, data]
  exact countPacket_found rendered found loaded

/-- The flow of a packet is created behind the index of its key. -/
theorem createFlow_index (tabled : Tabled order collector.trie collector.flowPool entries group)
    (rendered : flowKey order packet = .ok key) (missing : (entries key).join = none) :
    ∃ trie first, (indexFlow collector key).bind
        (fun (collector, slot) => createFlow collector slot packet) = .ok ({ collector with
          trie
          flowPool := collector.flowPool ++ [first] }, collector.flowPool.length) ∧
      first.firstTime = ⟨0, 0⟩ ∧ first.lastTime = ⟨0, 0⟩ ∧
      Tabled order trie (collector.flowPool ++ [first.add collector.now packet])
        (update entries key (some (some collector.flowPool.length)))
        (group ++ [⟨collector.now, packet⟩]) := by
  obtain ⟨trie, slot, indexed, -, -, stores⟩ := tabled.index (flowKey_shape rendered)
  obtain ⟨first, parsed⟩ := flowParse_eq_some (flowKey_known rendered)
  refine ⟨trie.store slot (some collector.flowPool.length), first, ?_, ?_, ?_,
    tabled.create rendered missing stores parsed collector.now⟩
  · rw [indexed]
    simp only [Except.bind, createFlow, parsed]
  all_goals
    obtain ⟨ports, -, rest⟩ := bind_eq_some_iff.mp parsed
    obtain ⟨addresses, -, rfl⟩ := map_eq_some_iff.mp rest
    rfl

theorem kept_update {place : Nat} (missing : (entries key).join = none) (other : Key) (pointer : Nat)
    (points : (entries other).join = some pointer) :
    (update entries key (some (some place)) other).join = some pointer := by
  have different : other ≠ key := by
    rintro rfl
    rw [missing] at points
    cases points
  rw [update_of_ne different, points]

/-- A packet that finds room for its flow is counted without a flush. -/
theorem countPacket_room (tabled : Tabled order collector.trie collector.flowPool entries group)
    (filled : Filled entries) (rendered : flowKey order packet = .ok key)
    (room : (keysOf order (group ++ [⟨collector.now, packet⟩])).toFinset.card <
      collector.maxFlows.toNat) (outcome : Outcome) :
    ∃ next pointer nextEntries,
      countPacket order collector packet outcome = .ok (next, pointer) ∧
      Counted order collector entries (group ++ [⟨collector.now, packet⟩]) key pointer next
        nextEntries := by
  cases entry : (entries key).join with
  | some pointer =>
    obtain ⟨trie, record, -, ran, counted⟩ := countPacket_known tabled rendered entry outcome
    exact ⟨_, pointer, entries, ran, counted, filled, entry, fun _ _ points => points, rfl⟩
  | none =>
    obtain ⟨trie, slot, indexed, data, between, -⟩ := tabled.index (flowKey_shape rendered)
    obtain ⟨final, first, created, -, -, counted⟩ := createFlow_index tabled rendered entry
    have small : ¬ collector.maxFlows.toNat ≤ trieSize trie := by
      have size := @Tabled.size_index order _ _ _ _ key trie ⟨collector.now, packet⟩ tabled
        filled rendered _ between.represents
      rw [size]
      exact not_le_of_gt room
    have found : findFlow collector key packet outcome = .ok ({ collector with
        trie := final
        flowPool := collector.flowPool ++ [first] }, collector.flowPool.length) := by
      rw [← created, findFlow, indexed]
      rw [entry] at data
      simp only [Except.bind, data, if_neg small]
    have ran := countPacket_found rendered found List.getElem?_concat_length
    simp only [set_concat_length] at ran
    refine ⟨_, collector.flowPool.length, _, ran, counted, ?_, ?_, ?_, rfl⟩
    · exact filled_update (fun other _ => filled other) _
    · rw [update_self, join_some]
    · exact kept_update entry

/-- The packets come one after another, and the result has the record of each packet. -/
def collect (order : ByteOrder) : Collector → List Arrival → Except Abort (Collector × List Nat)
  | collector, [] => .ok (collector, [])
  | collector, arrival :: arrivals =>
    (countPacket order { collector with now := arrival.now } arrival.packet .delivered).bind
      fun (collector, pointer) =>
        (collect order collector arrivals).map fun (collector, pointers) =>
          (collector, pointer :: pointers)

/-- Each packet finds its record behind the pointer of its key. -/
def Leads (order : ByteOrder) (entries : FiniteMap Nat) (arrival : Arrival) (pointer : Nat) :
    Prop :=
  ∃ key, flowKey order arrival.packet = .ok key ∧ (entries key).join = some pointer

theorem collect_room {arrivals : List Arrival}
    (tabled : Tabled order collector.trie collector.flowPool entries group)
    (filled : Filled entries)
    (known : ∀ arrival ∈ arrivals, arrival.packet.direction ≠ .unknown)
    (room : (keysOf order (group ++ arrivals)).toFinset.card < collector.maxFlows.toNat) :
    ∃ final pointers finalEntries, collect order collector arrivals = .ok (final, pointers) ∧
      Tabled order final.trie final.flowPool finalEntries (group ++ arrivals) ∧
      Filled finalEntries ∧ List.Forall₂ (Leads order finalEntries) arrivals pointers ∧
      ∀ key place, (entries key).join = some place → (finalEntries key).join = some place := by
  induction arrivals generalizing collector entries group with
  | nil =>
    rw [append_nil]
    exact ⟨collector, [], entries, rfl, tabled, filled, .nil, fun _ _ points => points⟩
  | cons arrival arrivals ih =>
    rw [forall_mem_cons] at known
    rw [append_cons] at room
    obtain ⟨key, _, _, parts⟩ := keyParts order known.1
    have fewer : (keysOf order (group ++ [arrival])).toFinset.card ≤
        (keysOf order (group ++ [arrival] ++ arrivals)).toFinset.card := by
      apply Finset.card_le_card
      rw [keysOf_append _ arrivals, toFinset_append]
      exact Finset.subset_union_left
    obtain ⟨next, pointer, nextEntries, ran, counted⟩ :=
      @countPacket_room order { collector with now := arrival.now } entries group key
        arrival.packet tabled filled parts.rendered (lt_of_le_of_lt fewer room) .delivered
    have roomNext := room
    rw [← counted.maxFlows] at roomNext
    obtain ⟨final, pointers, finalEntries, collected, finalTabled, finalFilled, leads, kept⟩ :=
      ih counted.tabled counted.filled known.2 roomNext
    rw [append_cons]
    refine ⟨final, pointer :: pointers, finalEntries, ?_, finalTabled, finalFilled, ?_, ?_⟩
    · rw [collect, ran]
      change (collect order next arrivals).map _ = _
      rw [collected]
      rfl
    · exact .cons ⟨key, parts.rendered, kept key pointer counted.points⟩ leads
    · exact fun other place points => kept other place (counted.kept other place points)

end Collect

section Walk

variable {order : ByteOrder} {trie : Trie Nat} {flowPool : List Record} {entries : FiniteMap Nat}
  {group : List Arrival}

/-- The walk visits each record of the pool once. -/
theorem Tabled.walk_perm (tabled : Tabled order trie flowPool entries group)
    (filled : Filled entries) :
    ((trieWalk trie).map TrieVisit.data).Perm ((List.range flowPool.length).map some) := by
  have visited := fun visit member => ((tabled.represents.mem_walk visit).mp member).2
  apply (perm_ext_iff_of_nodup _ _).mpr
  · intro data
    rw [List.mem_map, List.mem_map]
    constructor
    · rintro ⟨visit, member, rfl⟩
      have entry := visited visit member
      cases found : visit.data with
      | none =>
        rw [found] at entry
        exact absurd entry (filled visit.key)
      | some pointer =>
        have joined : (entries visit.key).join = some pointer := by
          rw [entry, found, join_some]
        exact ⟨pointer, mem_range.mpr (tabled.pointers.lt_length joined), rfl⟩
    · rintro ⟨pointer, inside, rfl⟩
      obtain ⟨key, points⟩ := tabled.pointers.covered pointer (mem_range.mp inside)
      exact ⟨⟨key, key.length, some pointer⟩,
        (tabled.represents.mem_walk _).mpr ⟨rfl, join_eq_some_iff.mp points⟩, rfl⟩
  · apply Nodup.map_on _ tabled.represents.walk_nodup.of_map
    intro first firstMember second secondMember same
    have firstEntry := visited first firstMember
    have secondEntry := visited second secondMember
    cases found : first.data with
    | none =>
      rw [found] at firstEntry
      exact absurd firstEntry (filled first.key)
    | some pointer =>
      rw [found] at firstEntry
      rw [← same, found] at secondEntry
      have keys := tabled.pointers.distinct first.key second.key pointer
        (by rw [firstEntry, join_some]) (by rw [secondEntry, join_some])
      exact inj_on_of_nodup_map tabled.represents.walk_nodup firstMember secondMember keys
  · exact nodup_range.map (some_injective _)

end Walk

/-- The table has one record for each identity and leads each packet to the record of its own. -/
structure Identifies (arrivals : List Arrival) (final : Collector) (pointers : List Nat) : Prop where
  length : pointers.length = arrivals.length
  same : ∀ (first second : Nat) (left right : Arrival), arrivals[first]? = some left →
    arrivals[second]? = some right →
      (pointers[first]? = pointers[second]? ↔ identity left.packet = identity right.packet)
  accounts : ∀ (pointer : Nat) (record : Record), final.flowPool[pointer]? = some record →
    Accounts record (((arrivals.zip pointers).filter fun counted => counted.2 = pointer).map Prod.fst)
  size : trieSize final.trie =
    (arrivals.map fun arrival => identity arrival.packet).toFinset.card
  walk : ((trieWalk final.trie).map TrieVisit.data).Perm
    ((List.range final.flowPool.length).map some)

section Identifying

variable {order : ByteOrder} {entries : FiniteMap Nat} {key : Key}
  {arrivals : List Arrival} {pointers : List Nat} {pointer : Nat} {packet : Packet}

theorem leads_iff {arrival : Arrival} {place : Nat} {flowPool : List Record} {group : List Arrival}
    (known : Pointers order (fun key => (entries key).join) flowPool group)
    (points : (entries key).join = some pointer) (leads : Leads order entries arrival place) :
    (flowKey order arrival.packet).toOption = some key ↔ place = pointer := by
  obtain ⟨own, rendered, ownPoints⟩ := leads
  rw [toOption_eq_some, rendered, Except.ok.injEq]
  constructor
  · rintro rfl
    exact Option.some.inj (ownPoints.symm.trans points)
  · rintro rfl
    exact known.distinct own key place ownPoints points

/-- The packets of a key are those that lead to its record. -/
theorem own_eq_zip {flowPool : List Record} {group : List Arrival}
    (known : Pointers order (fun key => (entries key).join) flowPool group)
    (points : (entries key).join = some pointer)
    (leads : List.Forall₂ (Leads order entries) arrivals pointers) :
    own order key arrivals =
      ((arrivals.zip pointers).filter fun counted => counted.2 = pointer).map Prod.fst := by
  induction leads with
  | nil => rfl
  | @cons arrival place arrivals pointers head tail ih =>
    have same := leads_iff known points head
    rw [zip_cons_cons, own, filter_cons, filter_cons, ← own, ih]
    by_cases here : place = pointer
    · simp only [same.mpr here, here, decide_true, if_true, map_cons]
    · simp only [mt same.mp here, here, decide_false, Bool.false_eq_true, if_false]

theorem tracked_known {captured : Captured} (tracked : trackedPacket captured = some packet) :
    packet.direction ≠ .unknown := by
  unfold trackedPacket at tracked
  split at tracked
  · split at tracked
    · cases tracked
    · next direction =>
        split at tracked
        · cases tracked
        · obtain rfl := Option.some.inj tracked
          exact direction
  · cases tracked

/-- Packets share a record exactly when they have the same identity, and no check fails. -/
theorem flow_identity (order : ByteOrder) (collector : Collector) (arrivals : List Arrival)
    (emptyTrie : collector.trie = trieAlloc Nat) (emptyPool : collector.flowPool = [])
    (accepted : ∀ arrival ∈ arrivals, trackedPacket [some arrival.packet] = some arrival.packet)
    (noFlush : (arrivals.map fun arrival => identity arrival.packet).toFinset.card <
      collector.maxFlows.toNat) :
    ∃ final pointers, collect order collector arrivals = .ok (final, pointers) ∧
      Identifies arrivals final pointers := by
  have known := fun arrival member => tracked_known (accepted arrival member)
  rw [← card_keysOf known] at noFlush
  have start : Tabled order collector.trie collector.flowPool (fun _ => none) [] := by
    rw [emptyTrie, emptyPool]
    exact tabled_nil order
  obtain ⟨final, pointers, entries, collected, tabled, filled, leads, -⟩ :=
    collect_room start nofun known noFlush
  refine ⟨final, pointers, collected, leads.length_eq.symm, ?_, ?_, ?_, tabled.walk_perm filled⟩
  · intro first second left right leftFound rightFound
    obtain ⟨leftInside, rfl⟩ := List.getElem?_eq_some_iff.mp leftFound
    obtain ⟨rightInside, rfl⟩ := List.getElem?_eq_some_iff.mp rightFound
    have leftPointer : first < pointers.length := leads.length_eq ▸ leftInside
    have rightPointer : second < pointers.length := leads.length_eq ▸ rightInside
    obtain ⟨leftKey, leftRendered, leftPoints⟩ := leads.get leftInside leftPointer
    obtain ⟨rightKey, rightRendered, rightPoints⟩ := leads.get rightInside rightPointer
    have keys := flowKey_eq_iff leftRendered rightRendered
    rw [List.getElem?_eq_getElem leftPointer, List.getElem?_eq_getElem rightPointer,
      Option.some.injEq]
    refine Iff.trans ?_ keys
    constructor
    · intro same
      simp only [get_eq_getElem, same] at leftPoints rightPoints
      exact tabled.pointers.distinct _ _ _ leftPoints rightPoints
    · rintro rfl
      exact Option.some.inj (leftPoints.symm.trans rightPoints)
  · intro pointer record found
    obtain ⟨inside, -⟩ := List.getElem?_eq_some_iff.mp found
    obtain ⟨key, points⟩ := tabled.pointers.covered pointer inside
    obtain ⟨record', found', accounts⟩ := tabled.pointers.points key pointer points
    obtain rfl := Option.some.inj (found.symm.trans found')
    rw [← own_eq_zip tabled.pointers points leads]
    exact accounts
  · rw [tabled.size_eq filled]
    exact card_keysOf known

end Identifying

/-- An answer has the ends of its question the other way round. -/
def answerOf (packet : Packet) : Packet :=
  { packet with
    direction := .incoming
    addresses := ⟨packet.addresses.dst, packet.addresses.src⟩
    ports := ⟨packet.ports.dst, packet.ports.src⟩
    family := by
      rcases packet.family with ⟨four, src, dst⟩ | ⟨six, src, dst⟩
      · exact .inl ⟨four, dst, src⟩
      · exact .inr ⟨six, dst, src⟩ }

def sampleArrivals : List Arrival :=
  [⟨1, probe 80⟩, ⟨2, probe 443⟩, ⟨3, answerOf (probe 80)⟩]

def sampleCollector : Collector :=
  { Collector.fresh ⟨[], 0⟩ 0 true with maxFlows := 10 }

/-- A question and its answer share a record, and another port has its own. -/
theorem flow_identity_sample :
    ∃ final pointers, collect .little sampleCollector sampleArrivals = .ok (final, pointers) ∧
      Identifies sampleArrivals final pointers :=
  flow_identity .little sampleCollector sampleArrivals rfl rfl
    (by simp [sampleArrivals, trackedPacket, probe, answerOf]) (by decide +kernel)

end Ucollect.Flow
