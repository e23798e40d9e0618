import Ucollect.Proof.Flow.Flushing

/-
The server reads the flows that the plugin has written.
-/

namespace Ucollect.Flow
open Library List Option

variable {flow : Record} {calibTime : Nat}

/-- The addresses fill their arrays, and an address of version 4 is followed by zeroes. The times
have 64 bits. -/
structure Record.Formed (flow : Record) : Prop where
  nearPadded : flow.addrs.first = addrBytes (flow.addrs.first.take (if flow.v6 then 16 else 4))
  farPadded : flow.addrs.second = addrBytes (flow.addrs.second.take (if flow.v6 then 16 else 4))
  nearWide : flow.addrs.first.length = 16
  farWide : flow.addrs.second.length = 16
  firstSmall : flow.firstTime.first < 2 ^ 64 ∧ flow.firstTime.second < 2 ^ 64
  lastSmall : flow.lastTime.first < 2 ^ 64 ∧ flow.lastTime.second < 2 ^ 64

def flowRow (calibTime : Nat) (flow : Record) : FlowRow where
  v6 := flow.v6
  addrs := ⟨flow.addrs.first.take (if flow.v6 then 16 else 4),
    flow.addrs.second.take (if flow.v6 then 16 else 4)⟩
  ports := ⟨flow.ports.first.toNat, flow.ports.second.toNat⟩
  udp := flow.udp
  starts := ⟨timeBack calibTime flow.firstTime.first, timeBack calibTime flow.firstTime.second⟩
  stops := ⟨timeBack calibTime flow.lastTime.first, timeBack calibTime flow.lastTime.second⟩
  counts := ⟨flow.count.first.toNat, flow.count.second.toNat⟩
  sizes := ⟨flow.size.first.toNat, flow.size.second.toNat⟩
  started := flow.seenFlowStart

/-- No time of the flow is more than a day before the message. -/
def Record.recent (calibTime : Nat) (flow : Record) : Bool :=
  [flow.firstTime.first, flow.lastTime.first, flow.firstTime.second, flow.lastTime.second].all
    (timeFits calibTime)

/-- The time that this distance stands for. -/
def timeForth (calibTime : Nat) (back : Option Int) : Nat :=
  match back with
  | none => 0
  | some back => ((calibTime : Int) - back).toNat

/-- The flow that the row stands for. -/
def FlowRow.record (calibTime : Nat) (row : FlowRow) : Record where
  count := ⟨UInt32.ofNat row.counts.first, UInt32.ofNat row.counts.second⟩
  size := ⟨UInt64.ofNat row.sizes.first, UInt64.ofNat row.sizes.second⟩
  firstTime := ⟨timeForth calibTime row.starts.first, timeForth calibTime row.starts.second⟩
  lastTime := ⟨timeForth calibTime row.stops.first, timeForth calibTime row.stops.second⟩
  ports := ⟨UInt16.ofNat row.ports.first, UInt16.ofNat row.ports.second⟩
  addrs := ⟨addrBytes row.addrs.first, addrBytes row.addrs.second⟩
  v6 := row.v6
  udp := row.udp
  seenFlowStart := row.started

theorem timeForth_timeBack (calibTime time : Nat) :
    timeForth calibTime (timeBack calibTime time) = time := by
  rw [timeBack]
  split
  case isTrue =>
    rw [timeForth]
    omega
  case isFalse zero =>
    rw [timeForth]
    omega

/-- Nothing is lost in the row. -/
theorem flowRow_record (formed : flow.Formed) :
    (flowRow calibTime flow).record calibTime = flow := by
  rw [FlowRow.record, flowRow]
  simp only [timeForth_timeBack, UInt32.ofNat_toNat, UInt64.ofNat_toNat, UInt16.ofNat_toNat]
  rw [← formed.nearPadded, ← formed.farPadded]

theorem flowFlags_bits (flow : Record) :
    decide ((flowFlags flow).toNat &&& 1 ≠ 0) = flow.v6 ∧
      decide ((flowFlags flow).toNat &&& 2 ≠ 0) = flow.udp ∧
      decide ((flowFlags flow).toNat &&& 4 ≠ 0) = flow.seenFlowStart.first ∧
      decide ((flowFlags flow).toNat &&& 8 ≠ 0) = flow.seenFlowStart.second := by
  rw [flowFlags]
  cases flow.v6 <;> cases flow.udp <;> cases flow.seenFlowStart.first <;>
    cases flow.seenFlowStart.second <;> decide

/-- The part of the flow in front of its addresses. -/
def flowHead (flow : Record) : Bytes :=
  flowFlags flow :: (word32 flow.count.first.toNat ++ (word32 flow.count.second.toNat ++
    (word64 flow.size.first.toNat ++ (word64 flow.size.second.toNat ++
      (word16 flow.ports.first.toNat ++ (word16 flow.ports.second.toNat ++
        (word64 flow.firstTime.first ++ (word64 flow.firstTime.second ++
          (word64 flow.lastTime.first ++ (word64 flow.lastTime.second ++ []))))))))))

theorem flowBytes_eq (flow : Record) : flowBytes flow = flowHead flow ++
    (flow.addrs.first.take (if flow.v6 then 16 else 4) ++
      flow.addrs.second.take (if flow.v6 then 16 else 4)) := by
  rw [flowBytes, flowRender, if_neg (not_not_intro rfl), flowHead]
  simp only [Except.toOption, getD_some, cons_append, append_assoc, append_nil]

/-- One round of the loop reads one flow. -/
theorem storeFlow_flowBytes (formed : flow.Formed) (rest : Bytes) :
    storeFlow calibTime (flowBytes flow ++ rest) =
      some (if flow.recent calibTime then some (flowRow calibTime flow) else none, rest) := by
  have head : (flowHead flow).length = 61 := rfl
  obtain ⟨v6, udp, first, second⟩ := flowFlags_bits flow
  have size : (if (flowFlags flow).toNat &&& 1 ≠ 0 then 16 else 4) =
      if flow.v6 then 16 else 4 := by
    rw [← v6]
    simp only [decide_eq_true_eq]
  have near : (flow.addrs.first.take (if flow.v6 then 16 else 4)).length =
      if flow.v6 then 16 else 4 := by
    rw [length_take_of_le]
    rw [formed.nearWide]
    split <;> decide
  have far : (flow.addrs.second.take (if flow.v6 then 16 else 4)).length =
      if flow.v6 then 16 else 4 := by
    rw [length_take_of_le]
    rw [formed.farWide]
    split <;> decide
  rw [flowBytes_eq, append_assoc, append_assoc, storeFlow]
  refine (reads_next (cut_append _ head)).trans ?_
  refine (reads_next (readNumber_byte _ _)).trans ?_
  refine (reads_next (readNumber_word32 _ (UInt32.toNat_lt _))).trans ?_
  refine (reads_next (readNumber_word32 _ (UInt32.toNat_lt _))).trans ?_
  refine (reads_next (readNumber_word64 _ (UInt64.toNat_lt _))).trans ?_
  refine (reads_next (readNumber_word64 _ (UInt64.toNat_lt _))).trans ?_
  refine (reads_next (readNumber_word16 _ (UInt16.toNat_lt _))).trans ?_
  refine (reads_next (readNumber_word16 _ (UInt16.toNat_lt _))).trans ?_
  refine (reads_next (readNumber_word64 _ formed.firstSmall.1)).trans ?_
  refine (reads_next (readNumber_word64 _ formed.firstSmall.2)).trans ?_
  refine (reads_next (readNumber_word64 _ formed.lastSmall.1)).trans ?_
  refine (reads_next (readNumber_word64 _ formed.lastSmall.2)).trans ?_
  refine (reads_next (cut_append _ (near.trans size.symm))).trans ?_
  refine (reads_next (cut_append _ (far.trans size.symm))).trans ?_
  dsimp only
  rw [v6, udp, first, second]
  rfl

/-- The flows with enough packets. -/
def shownFlows (minPackets : UInt32) (flows : List (Option Record)) : List Record :=
  (flows.filterMap id).filter fun flow => isShown minPackets (some flow)

/-- The second walk renders what the first one has measured. -/
theorem formatFlows_shown (minPackets : UInt32) (flows : List (Option Record)) :
    formatFlows minPackets flows (flows.map (shownSize minPackets)) =
      .ok ((shownFlows minPackets flows).flatMap flowBytes,
        (flows.map (shownSize minPackets)).sum) := by
  induction flows with
  | nil => rfl
  | cons flow flows ih =>
    rw [map_cons, sum_cons]
    cases flow with
    | none =>
      rw [formatFlows, ih, shownSize, Nat.zero_add]
      rfl
    | some flow =>
      rw [formatFlows, ih, shownSize]
      cases shown : isShown minPackets (some flow) with
      | false =>
        have left : shownFlows minPackets (some flow :: flows) =
            shownFlows minPackets flows := filter_cons_of_neg (by simp [shown])
        rw [left, if_neg Bool.false_ne_true, if_neg Bool.false_ne_true, Nat.zero_add]
      | true =>
        have taken : shownFlows minPackets (some flow :: flows) =
            flow :: shownFlows minPackets flows := filter_cons_of_pos shown
        rw [taken, if_pos rfl, if_pos rfl, flowRender_flowSize, flatMap_cons]
        rfl

/-- The server stores the flows of a message in order. It leaves out those with a time of more than
a day before the message. -/
theorem flows_stored (collector : Collector) (small : collector.now < 2 ^ 64)
    (flows : List (Option Record)) (formed : ∀ flow, some flow ∈ flows → flow.Formed) :
    ∃ body pos, formatFlows collector.minPackets flows
        (flows.map (shownSize collector.minPackets)) = .ok (body, pos) ∧
      storeFlows ((flushHeader collector ++ body).drop 1) =
        some ⟨collector.confId.toNat, collector.now,
          ((shownFlows collector.minPackets flows).filter (Record.recent collector.now)).map
            (flowRow collector.now)⟩ ∧
      ∀ flow ∈ shownFlows collector.minPackets flows,
        (flowRow collector.now flow).record collector.now = flow := by
  have members : ∀ flow ∈ shownFlows collector.minPackets flows, flow.Formed := by
    intro flow member
    obtain ⟨entry, known, same⟩ := mem_filterMap.mp (mem_filter.mp member).1
    exact formed flow (same ▸ known)
  have filled : ∀ flow ∈ shownFlows collector.minPackets flows, flowBytes flow ≠ [] := by
    intro flow _
    rw [flowBytes_eq, flowHead, cons_append]
    exact cons_ne_nil _ _
  have read := readAll_flatMap (fun flow member rest =>
      @storeFlow_flowBytes flow collector.now (members flow member) rest) filled
    (length_flatMap_ge filled)
  refine ⟨_, _, formatFlows_shown collector.minPackets flows, ?_, fun flow member =>
    flowRow_record (members flow member)⟩
  show storeFlows (word32 collector.confId.toNat ++ word64 collector.now ++ _) = _
  rw [append_assoc, storeFlows]
  refine (reads_next (readNumber_word32 _ (UInt32.toNat_lt _))).trans ?_
  refine (reads_next (readNumber_word64 _ small)).trans ?_
  refine (reads_next read).trans ?_
  have rows : ∀ flows : List Record, (flows.map fun flow =>
      if flow.recent collector.now then some (flowRow collector.now flow) else none).filterMap id =
        (flows.filter (Record.recent collector.now)).map (flowRow collector.now) := by
    intro flows
    induction flows with
    | nil => rfl
    | cons flow flows ih =>
      rw [map_cons, filter_cons]
      cases recent : flow.recent collector.now with
      | true =>
        rw [if_pos rfl, if_pos rfl, map_cons, ← ih]
        rfl
      | false =>
        rw [if_neg Bool.false_ne_true, if_neg Bool.false_ne_true, ← ih]
        rfl
  rw [rows]

/-- A flow of more than a day. -/
def longFlow : Record where
  count := ⟨1, 0⟩
  size := ⟨100, 0⟩
  firstTime := ⟨1, 0⟩
  lastTime := ⟨86400002, 0⟩
  ports := ⟨1024, 80⟩
  addrs := ⟨addrBytes [192, 168, 0, 1], addrBytes [192, 0, 2, 1]⟩
  v6 := false
  udp := false
  seenFlowStart := ⟨false, true⟩

/-- A flow of IPv6 in both directions. -/
def wideFlow : Record where
  count := ⟨3, 2⟩
  size := ⟨300, 2900⟩
  firstTime := ⟨86400000, 86400001⟩
  lastTime := ⟨86400002, 86400001⟩
  ports := ⟨5353, 53⟩
  addrs := ⟨[32, 1, 13, 184, 0, 0, 0, 0, 0, 0, 0, 0, 0, 0, 0, 1],
    [32, 1, 13, 184, 255, 0, 0, 0, 0, 0, 0, 0, 0, 0, 0, 2]⟩
  v6 := true
  udp := true
  seenFlowStart := ⟨false, false⟩

def mixedFlows : List (Option Record) :=
  [some longFlow, some { longFlow with count := ⟨0, 1⟩ }, some wideFlow, none]

theorem mixedFlows_formed (flow : Record) (member : some flow ∈ mixedFlows) : flow.Formed := by
  simp only [mixedFlows, mem_cons, Option.some.injEq, not_mem_nil, or_false, reduceCtorEq] at member
  rcases member with rfl | rfl | rfl
  all_goals exact ⟨by decide, by decide, by decide, by decide, by decide, by decide⟩

/-- Two flows have enough packets, and the long one is too old. -/
theorem flows_stored_mixed :
    ∃ body pos, formatFlows 1 mixedFlows (mixedFlows.map (shownSize 1)) = .ok (body, pos) ∧
      storeFlows ((flushHeader { Collector.fresh ⟨[], 0⟩ 86400002 true with minPackets := 1 } ++
        body).drop 1) = some ⟨0, 86400002, [flowRow 86400002 wideFlow]⟩ := by
  obtain ⟨body, pos, formatted, stored, -⟩ := flows_stored
    { Collector.fresh ⟨[], 0⟩ 86400002 true with minPackets := 1 } (by decide) mixedFlows
    mixedFlows_formed
  have kept : ((shownFlows 1 mixedFlows).filter (Record.recent 86400002)).map (flowRow 86400002) =
      [flowRow 86400002 wideFlow] := by decide +kernel
  exact ⟨body, pos, formatted,
    stored.trans (congrArg (fun rows => some (StoredFlows.mk 0 86400002 rows)) kept)⟩

/-- The long flow is not stored. -/
theorem flows_stored_not :
    ∃ body pos, formatFlows 0 [some longFlow] ([some longFlow].map (shownSize 0)) =
        .ok (body, pos) ∧
      storeFlows ((flushHeader (.fresh ⟨[], 0⟩ 86400002 true) ++ body).drop 1) =
        some ⟨0, 86400002, []⟩ :=
  ⟨_, _, rfl, by decide +kernel⟩

end Ucollect.Flow
