import Ucollect.Proof.Uplink.Breaks
import Ucollect.Proof.Uplink.Timing

namespace Ucollect.Core
open MemPool List Option

variable {C : Type} {machine : Machine} {timers next : Timers C} {now delay id : Nat}
  {callback other : C}

/-- The search skips the identifiers in use. -/
theorem freshId_unused {used : List Nat} {tries counter : Nat}
    (found : freshId machine used tries counter = some id) : id ∉ used := by
  induction tries generalizing counter with
  | zero => cases found
  | succ tries ih =>
    simp only [freshId] at found
    split at found
    case isTrue taken => exact ih found
    case isFalse free =>
      obtain rfl := Option.some.inj found
      exact free

/-- A search that fails has seen only identifiers in use. -/
theorem freshId_none {used : List Nat} {tries counter : Nat}
    (failed : freshId machine used tries counter = none) (position : Nat) (small : position < tries) :
    (counter + 1 + position) % machine.limit ∈ used := by
  induction tries generalizing counter position with
  | zero => cases small
  | succ tries ih =>
    simp only [freshId] at failed
    split at failed
    case isTrue taken =>
      cases position with
      | zero => exact taken
      | succ position =>
        have later := ih failed position (Nat.lt_of_succ_lt_succ small)
        rwa [Nat.add_assoc, Nat.mod_add_mod, ← Nat.add_assoc, Nat.add_right_comm _ 1 position]
          at later
    case isFalse free => cases failed

/-- There is a free identifier while the timeouts are fewer than the identifiers. -/
theorem freshId_some {used : List Nat} {tries counter : Nat} (enough : used.length < tries)
    (bound : tries ≤ machine.limit) : ∃ id, freshId machine used tries counter = some id := by
  cases failed : freshId machine used tries counter with
  | some id => exact ⟨id, rfl⟩
  | none =>
    have seen := freshId_none failed
    have distinct : ((List.range tries).map fun position =>
        (counter + 1 + position) % machine.limit).Nodup := by
      apply Nodup.map_on _ nodup_range
      intro first firstSmall second secondSmall same
      have equal := Nat.ModEq.add_left_cancel' (counter + 1) same
      rw [mem_range] at firstSmall secondSmall
      rwa [Nat.ModEq, Nat.mod_eq_of_lt (lt_of_lt_of_le firstSmall bound),
        Nat.mod_eq_of_lt (lt_of_lt_of_le secondSmall bound)] at equal
    have subset : ((List.range tries).map fun position =>
        (counter + 1 + position) % machine.limit) ⊆ used := by
      intro id member
      obtain ⟨position, small, rfl⟩ := List.mem_map.mp member
      exact seen position (mem_range.mp small)
    have long := (distinct.subperm subset).length_le
    rw [length_map, length_range] at long
    omega

/-- There is always a free number. -/
theorem Timers.add_some (few : timers.timeouts.length < machine.limit) (now delay : Nat)
    (callback : C) : ∃ id next, timers.add machine now delay callback = some (id, next) := by
  obtain ⟨id, fresh⟩ := @freshId_some machine timers.ids (timers.timeouts.length + 1) timers.counter
    (by rw [ids, length_map]; exact Nat.lt_succ_self _) few
  exact ⟨id, _, by rw [add, fresh]; rfl⟩

/-- An insertion adds one timeout. -/
theorem insertTimeout_perm (timeouts : List (Timeout C)) (timeout : Timeout C) :
    (insertTimeout timeouts timeout).Perm (timeout :: timeouts) := by
  apply perm_middle.trans
  rw [rdropWhile_append_rtakeWhile]

variable {timeout : Timeout C}

theorem filter_insertTimeout {accepts : Timeout C → Bool} (timeouts : List (Timeout C))
    (rejected : accepts timeout = false) :
    (insertTimeout timeouts timeout).filter accepts = timeouts.filter accepts := by
  rw [insertTimeout, filter_append, filter_cons_of_neg (by simp [rejected]), ← filter_append,
    rdropWhile_append_rtakeWhile]

variable {timeouts : List (Timeout C)}

/-- The timeouts behind a new one are due later. -/
theorem due_behind {after : Timeout C}
    (member : after ∈ timeouts.rtakeWhile fun other => timeout.due < other.due) :
    timeout.due < after.due := by
  simpa using mem_rtakeWhile_imp member

/-- The timeouts in front of a new one are due no later. -/
theorem due_ahead {before : Timeout C}
    (sorted : timeouts.Pairwise fun first second => first.due ≤ second.due)
    (member : before ∈ timeouts.rdropWhile fun other => timeout.due < other.due) :
    before.due ≤ timeout.due := by
  have front := sorted.sublist
    (List.rdropWhile_prefix (fun other => timeout.due < other.due) timeouts).sublist
  have filled := ne_nil_of_mem member
  have last := rdropWhile_last_not _ _ filled
  simp only [decide_eq_true_eq, Nat.not_lt] at last
  rw [← dropLast_append_getLast filled, pairwise_append] at front
  rw [← dropLast_append_getLast filled, mem_append] at member
  rcases member with inside | final
  · exact (front.2.2 before inside _ (mem_singleton_self _)).trans last
  · rw [mem_singleton.mp final]
    exact last

/-- It keeps the order of the times. -/
theorem insertTimeout_due (timeout : Timeout C)
    (sorted : timeouts.Pairwise fun first second => first.due ≤ second.due) :
    (insertTimeout timeouts timeout).Pairwise fun first second => first.due ≤ second.due := by
  have front := sorted.sublist
    (List.rdropWhile_prefix (fun other => timeout.due < other.due) timeouts).sublist
  have back := sorted.sublist
    (rtakeWhile_suffix (fun other => timeout.due < other.due) timeouts).sublist
  rw [insertTimeout, pairwise_append]
  refine ⟨front, pairwise_cons.mpr ⟨fun after member => (due_behind member).le, back⟩, ?_⟩
  intro before member after behind
  rcases mem_cons.mp behind with rfl | behind
  · exact due_ahead sorted member
  · exact (due_ahead sorted member).trans (due_behind behind).le

section

variable (added : timers.add machine now delay callback = some (id, next))
include added

/-- A new timeout has an identifier of its own. -/
theorem Timers.add_cases :
    id ∉ timers.ids ∧
      ∃ due, next.timeouts = insertTimeout timers.timeouts ⟨due, id, callback⟩ := by
  simp only [add, map_eq_some_iff, Prod.mk.injEq] at added
  obtain ⟨found, fresh, rfl, rfl⟩ := added
  exact ⟨freshId_unused fresh, _, rfl⟩

theorem Timers.add_length : next.timeouts.length = timers.timeouts.length + 1 := by
  obtain ⟨-, due, inserted⟩ := add_cases added
  rw [inserted, (insertTimeout_perm _ _).length_eq, length_cons]

/-- A new number is not used yet. -/
theorem Timers.add_nodup (distinct : timers.ids.Nodup) : next.ids.Nodup := by
  obtain ⟨fresh, due, inserted⟩ := add_cases added
  have order : next.ids.Perm (id :: timers.ids) := by
    rw [ids, inserted]
    exact (insertTimeout_perm _ _).map _
  exact order.nodup_iff.mpr (nodup_cons.mpr ⟨fresh, distinct⟩)

end

section

variable (cancelled : timers.cancel id = some next)
include cancelled

/-- A cancelled timeout was pending, and nothing else changes. -/
theorem Timers.cancel_cases :
    ∃ before timeout after, timeout.id = id ∧ timers.timeouts = before ++ timeout :: after ∧
      next.timeouts = before ++ after := by
  simp only [cancel, ite_none_right_eq_some, Option.some.injEq] at cancelled
  obtain ⟨present, rfl⟩ := cancelled
  obtain ⟨timeout, member, same⟩ := List.mem_map.mp present
  obtain ⟨found, before, after, -, matched, split, erased⟩ :=
    exists_of_eraseP (p := fun timeout => timeout.id == id) member (by simpa using same)
  exact ⟨before, found, after, by simpa using matched, split, erased⟩

theorem Timers.cancel_length : timers.timeouts.length = next.timeouts.length + 1 := by
  obtain ⟨before, timeout, after, -, split, erased⟩ := cancel_cases cancelled
  simp only [split, erased, length_append, length_cons]
  omega

/-- Cancelling keeps the numbers distinct. -/
theorem Timers.cancel_nodup (distinct : timers.ids.Nodup) : next.ids.Nodup := by
  obtain ⟨before, timeout, after, -, split, erased⟩ := cancel_cases cancelled
  have fewer : next.ids.Sublist timers.ids := by
    rw [ids, ids, split, erased]
    exact ((sublist_cons_self _ _).append_left _).map _
  exact List.Nodup.sublist fewer distinct

end

variable [DecidableEq C]

/-- These are the identifiers of the pending timeouts with the callback. -/
def Timers.pending (timers : Timers C) (callback : C) : List Nat :=
  (timers.timeouts.filter fun timeout => timeout.callback = callback).map (·.id)

theorem Timers.mem_pending :
    id ∈ timers.pending callback ↔
      ∃ timeout ∈ timers.timeouts, timeout.callback = callback ∧ timeout.id = id := by
  simp only [pending, List.mem_map, mem_filter, decide_eq_true_eq, and_assoc]

/-- An identifier belongs to one callback. -/
theorem Timers.pending_unique (distinct : timers.ids.Nodup) (here : id ∈ timers.pending callback)
    (there : id ∈ timers.pending other) : callback = other := by
  obtain ⟨first, firstPending, firstCallback, firstId⟩ := mem_pending.mp here
  obtain ⟨second, secondPending, secondCallback, secondId⟩ := mem_pending.mp there
  have same : first = second :=
    inj_on_of_nodup_map distinct firstPending secondPending (firstId.trans secondId.symm)
  rw [← firstCallback, ← secondCallback, same]

theorem Timers.add_pending_perm (added : timers.add machine now delay callback = some (id, next)) :
    (next.pending callback).Perm (id :: timers.pending callback) := by
  obtain ⟨-, due, inserted⟩ := add_cases added
  rw [pending, inserted]
  have filtered := ((insertTimeout_perm timers.timeouts ⟨due, id, callback⟩).filter
    fun timeout => timeout.callback = callback).map (·.id)
  simpa [pending] using filtered

/-- An added callback is pending once. -/
theorem Timers.add_pending (added : timers.add machine now delay callback = some (id, next))
    (idle : timers.pending callback = []) : next.pending callback = [id] := by
  have order := add_pending_perm added
  rw [idle] at order
  exact order.eq_singleton

theorem Timers.add_pending_other (other : C)
    (added : timers.add machine now delay callback = some (id, next)) (different : callback ≠ other) :
    next.pending other = timers.pending other := by
  obtain ⟨-, due, inserted⟩ := add_cases added
  rw [pending, pending, inserted, filter_insertTimeout]
  exact decide_eq_false different

/-- A cancelled one is not pending. -/
theorem Timers.cancel_pending (cancelled : timers.cancel id = some next)
    (distinct : timers.ids.Nodup) (only : timers.pending callback = [id]) :
    next.pending callback = [] := by
  obtain ⟨before, timeout, after, same, split, erased⟩ := cancel_cases cancelled
  obtain ⟨found, member, called, foundId⟩ :=
    mem_pending.mp (by rw [only]; exact mem_singleton_self id)
  have equal : found = timeout := by
    apply inj_on_of_nodup_map distinct member
    · rw [split]
      exact mem_append_right _ mem_cons_self
    · exact foundId.trans same.symm
  subst equal
  simp only [pending, split, filter_append, filter_cons, called, decide_true, if_true, map_append,
    map_cons] at only
  have counted := congrArg List.length only
  simp only [length_append, length_cons, length_nil, length_map] at counted
  rw [pending, erased, filter_append, map_append, append_eq_nil_iff, map_eq_nil_iff, map_eq_nil_iff,
    ← length_eq_zero_iff, ← length_eq_zero_iff]
  omega

theorem Timers.cancel_pending_other (other : C) (cancelled : timers.cancel id = some next)
    (absent : id ∉ timers.pending other) : next.pending other = timers.pending other := by
  obtain ⟨before, timeout, after, same, split, erased⟩ := cancel_cases cancelled
  have different : ¬ timeout.callback = other := by
    intro called
    apply absent
    rw [mem_pending, split]
    exact ⟨timeout, mem_append_right _ mem_cons_self, called, same⟩
  rw [pending, pending, erased, split, filter_append, filter_append,
    filter_cons_of_neg (by simpa using different)]

/-- The timeout that fires is not pending any more. -/
theorem Timers.pending_fired {timeout : Timeout C} {rest : List (Timeout C)}
    (first : timers.timeouts = timeout :: rest) :
    timers.pending callback =
      if timeout.callback = callback then
        timeout.id :: { timers with timeouts := rest }.pending callback
      else { timers with timeouts := rest }.pending callback := by
  simp only [pending, first, filter_cons, decide_eq_true_eq]
  split <;> rfl

end Ucollect.Core

namespace Ucollect.Core
open Library List Option

variable {Z : Type}

/-- The flags of the uplink agree with the timeouts of the loop. -/
structure System.Timed (system : System Z) : Prop where
  distinct : system.timers.ids.Nodup
  waiting : system.timers.pending .reconnectNow =
    if system.uplink.reconnectScheduled then [system.uplink.reconnectId] else []
  ping : system.uplink.pingScheduled = true →
    system.uplink.pingTimeout ∈ system.timers.pending .sendPing

namespace System.Timed
open List Option

variable {system : System Z} {timers : Timers Callback} {delay id : Nat}

section

variable (timed : system.Timed)
include timed

theorem retime {after : System Z} (same : after.timing = system.timing) : after.Timed := by
  have sameTimers : after.timers = system.timers := congrArg Timing.timers same
  have samePing : after.uplink.pingTimeout = system.uplink.pingTimeout :=
    congrArg Timing.pingTimeout same
  have sameFlag : after.uplink.pingScheduled = system.uplink.pingScheduled :=
    congrArg Timing.pingScheduled same
  have sameWaiting : after.uplink.reconnectScheduled = system.uplink.reconnectScheduled :=
    congrArg Timing.reconnectScheduled same
  have sameId : after.uplink.reconnectId = system.uplink.reconnectId :=
    congrArg Timing.reconnectId same
  constructor
  · rw [sameTimers]
    exact timed.distinct
  · rw [sameTimers, sameWaiting, sameId]
    exact timed.waiting
  · rw [sameTimers, sameFlag, samePing]
    exact timed.ping

/-- A pending identifier of another callback is not one of the uplink. -/
theorem absent {mine theirs : Callback} (member : id ∈ system.timers.pending mine)
    (different : mine ≠ theirs) :
    id ∉ system.timers.pending theirs :=
  fun there => different (Timers.pending_unique timed.distinct member there)

theorem waits (scheduled : system.uplink.reconnectScheduled = true) :
    system.timers.pending .reconnectNow = [system.uplink.reconnectId] := by
  rw [timed.waiting, if_pos scheduled]

theorem free (unscheduled : system.uplink.reconnectScheduled = false) :
    system.timers.pending .reconnectNow = [] := by
  rw [timed.waiting, if_neg (by simp [unscheduled])]

theorem addOther (added : system.timers.add .wide system.now delay .other = some (id, timers)) :
    { system with timers := timers }.Timed where
  distinct := Timers.add_nodup added timed.distinct
  waiting := (Timers.add_pending_other _ added (by decide)).trans timed.waiting
  ping flag := by
    rw [Timers.add_pending_other _ added (by decide)]
    exact timed.ping flag

/-- A cancelled timeout of a plugin is not one of the uplink. -/
theorem otherPending {timeout : Timeout Callback} {mine : Callback}
    (member : timeout ∈ system.timers.timeouts) (other : timeout.callback = .other)
    (cancelled : system.timers.cancel timeout.id = some timers) (different : .other ≠ mine) :
    timers.pending mine = system.timers.pending mine := by
  have own : timeout.id ∈ system.timers.pending .other :=
    Timers.mem_pending.mpr ⟨timeout, member, other, rfl⟩
  exact Timers.cancel_pending_other mine cancelled (timed.absent own different)

theorem cancelOther {timeout : Timeout Callback} (member : timeout ∈ system.timers.timeouts)
    (other : timeout.callback = .other)
    (cancelled : system.timers.cancel timeout.id = some timers) :
    { system with timers := timers }.Timed where
  distinct := Timers.cancel_nodup cancelled timed.distinct
  waiting := (timed.otherPending member other cancelled (by decide)).trans timed.waiting
  ping flag := by
    rw [timed.otherPending member other cancelled (by decide)]
    exact timed.ping flag

theorem scheduled (unscheduled : system.uplink.reconnectScheduled = false)
    (added : system.timers.add .wide system.now delay .reconnectNow = some (id, timers)) :
    (system.scheduled id timers).Timed where
  distinct := Timers.add_nodup added timed.distinct
  waiting := Timers.add_pending added (timed.free unscheduled)
  ping flag := by
    have kept := Timers.add_pending_other .sendPing added (by decide)
    exact kept ▸ timed.ping flag

/-- The cancelled reconnect timeout is not a ping. -/
theorem unscheduledPings (waiting : system.uplink.reconnectScheduled = true)
    (cancelled : system.timers.cancel system.uplink.reconnectId = some timers) :
    timers.pending .sendPing = system.timers.pending .sendPing := by
  have own : system.uplink.reconnectId ∈ system.timers.pending .reconnectNow := by
    rw [timed.waits waiting]
    exact mem_singleton_self _
  exact Timers.cancel_pending_other _ cancelled (timed.absent own (by decide))

theorem unscheduled (waiting : system.uplink.reconnectScheduled = true)
    (cancelled : system.timers.cancel system.uplink.reconnectId = some timers) :
    (system.unscheduled timers).Timed where
  distinct := Timers.cancel_nodup cancelled timed.distinct
  waiting := Timers.cancel_pending cancelled timed.distinct (timed.waits waiting)
  ping flag := timed.unscheduledPings waiting cancelled ▸ timed.ping flag

/-- Silencing the ping leaves the reconnect timeout alone. -/
theorem silenced (silenced : system.Silenced timers) :
    timers.ids.Nodup ∧
      timers.pending .reconnectNow = system.timers.pending .reconnectNow := by
  unfold System.Silenced at silenced
  split at silenced
  case isTrue flag =>
    exact ⟨Timers.cancel_nodup silenced timed.distinct,
      Timers.cancel_pending_other _ silenced (timed.absent (timed.ping flag) (by decide))⟩
  case isFalse quiet => exact ⟨silenced ▸ timed.distinct, by rw [silenced]⟩

theorem hungUp (silenced : system.Silenced timers) : (system.hungUp timers).Timed where
  distinct := (timed.silenced silenced).1
  waiting := (timed.silenced silenced).2.trans timed.waiting
  ping flag := nomatch flag

theorem armed (added : system.timers.add .wide system.now delay .sendPing = some (id, timers)) :
    (system.armed id timers).Timed where
  distinct := Timers.add_nodup added timed.distinct
  waiting := (Timers.add_pending_other _ added (by decide)).trans timed.waiting
  ping _ := (Timers.add_pending_perm added).symm.subset mem_cons_self

end

section Firing

variable {timeout : Timeout Callback} {rest : List (Timeout Callback)}
  (first : system.timers.timeouts = timeout :: rest)
include first

theorem firedDistinct (timed : system.Timed) :
    ({ system.timers with timeouts := rest } : Timers Callback).ids.Nodup := by
  have distinct := timed.distinct
  rw [Timers.ids, first, map_cons, nodup_cons] at distinct
  exact distinct.2

/-- A timeout that is not one of the uplink leaves the flags alone. -/
theorem firedOther (timed : system.Timed) (other : timeout.callback = .other) :
    { system with timers := { system.timers with timeouts := rest } }.Timed := by
  have waiting := timed.waiting
  have ping := timed.ping
  rw [Timers.pending_fired first, other, if_neg (by decide)] at waiting ping
  exact ⟨timed.firedDistinct first, waiting, ping⟩

theorem firedReconnect (timed : system.Timed) (reconnect : timeout.callback = .reconnectNow) :
    { system with
      timers := { system.timers with timeouts := rest }
      uplink := { system.uplink with reconnectScheduled := false } }.Timed := by
  have waiting := timed.waiting
  have ping := timed.ping
  rw [Timers.pending_fired first, reconnect, if_pos rfl] at waiting
  rw [Timers.pending_fired first, reconnect, if_neg (by decide)] at ping
  refine ⟨timed.firedDistinct first, ?_, ping⟩
  split at waiting
  · exact (List.cons.inj waiting).2
  · cases waiting

theorem firedPing (timed : system.Timed) (ping : timeout.callback = .sendPing) :
    { system with
      timers := { system.timers with timeouts := rest }
      uplink := { system.uplink with pingScheduled := false } }.Timed := by
  have waiting := timed.waiting
  rw [Timers.pending_fired first, ping, if_neg (by decide)] at waiting
  exact ⟨timed.firedDistinct first, waiting, nofun⟩

end Firing

end System.Timed

end Ucollect.Core
