import Ucollect.Construction.Fake.Connections
import Ucollect.Library.Outcomes
import Ucollect.Proof.Fake.Lines
import Ucollect.Proof.Uplink.Timeouts

/-
Each slot has its own view of the pending timeouts, and it agrees with the flags of the slot.
-/

namespace Ucollect.Fake.Telnet
open Library Core List Option Function

section Views

/-- The slot that a callback works for. -/
def Callback.slot : Callback → Nat
  | .inactive slot => slot
  | .denial slot => slot

variable {timers next : Timers Callback} {slot : Nat}

/-- These are the pending timeouts of the slot. -/
def viewOf (timers : Timers Callback) (slot : Nat) : List (Timeout Callback) :=
  timers.timeouts.filter fun timeout => timeout.callback.slot = slot

/-- The timeouts of one slot. -/
def World.view (world : World) (slot : Nat) : List (Timeout Callback) := viewOf world.timers slot

@[simp] theorem setTimers_slots (world : World) (timers : Timers Callback) :
    (world.setTimers timers).slots = world.slots := rfl

@[simp] theorem setTimers_view (world : World) (timers : Timers Callback) (slot : Nat) :
    (world.setTimers timers).view slot = viewOf timers slot := rfl

@[simp] theorem logWrapper_slots (world : World) (slot : Nat) (type : EventType)
    (reason : Option String) (username password : Option Bytes) :
    (logWrapper world slot type reason username password).slots = world.slots := rfl

/-- The timers are in order, with distinct numbers. -/
structure Timed (timers : Timers Callback) : Prop where
  distinct : timers.ids.Nodup
  sorted : timers.timeouts.Pairwise fun first second => first.due ≤ second.due

/-- A new timeout shows in its own slot only. -/
theorem Timed.add (timed : Timed timers) {now delay id : Nat} {callback : Callback}
    (added : timers.add .wide now delay callback = some (id, next)) (positive : delay ≠ 0) :
    Timed next ∧
      (viewOf next callback.slot).Perm
        (⟨now + delay, id, callback⟩ :: viewOf timers callback.slot) ∧
      (∀ other ≠ callback.slot, viewOf next other = viewOf timers other) ∧
      ∀ timeout ∈ next.timeouts, timeout = ⟨now + delay, id, callback⟩ ∨
        timeout ∈ timers.timeouts := by
  have distinct := Timers.add_nodup added timed.distinct
  simp only [Timers.add, if_neg positive, map_eq_some_iff, Prod.mk.injEq] at added
  obtain ⟨found, -, rfl, rfl⟩ := added
  refine ⟨⟨distinct, insertTimeout_due _ timed.sorted⟩, ?_, ?_, ?_⟩
  · have inserted := (insertTimeout_perm timers.timeouts ⟨now + delay, found, callback⟩).filter
      fun timeout => timeout.callback.slot = callback.slot
    simpa [viewOf] using inserted
  · intro other different
    apply filter_insertTimeout
    simpa using different.symm
  · intro timeout member
    exact mem_cons.mp ((insertTimeout_perm _ _).mem_iff.mp member)

/-- A cancelled one leaves its own slot only. -/
theorem Timed.cancel (timed : Timed timers) {timeout : Timeout Callback}
    {rest : List (Timeout Callback)} (held : (viewOf timers slot).Perm (timeout :: rest)) :
    ∃ next, timers.cancel timeout.id = some next ∧ Timed next ∧ (viewOf next slot).Perm rest ∧
      (∀ other ≠ slot, viewOf next other = viewOf timers other) ∧
      ∀ timeout ∈ next.timeouts, timeout ∈ timers.timeouts := by
  have member : timeout ∈ viewOf timers slot := held.mem_iff.mpr mem_cons_self
  obtain ⟨pending, owned⟩ := mem_filter.mp member
  have known : timeout.id ∈ timers.ids := List.mem_map_of_mem pending
  have cancelled : timers.cancel timeout.id = some { timers with
      timeouts := timers.timeouts.eraseP fun other => other.id == timeout.id } := if_pos known
  refine ⟨_, cancelled, ?_⟩
  obtain ⟨before, found, after, same, split, erased⟩ := Timers.cancel_cases cancelled
  have equal : found = timeout := by
    apply inj_on_of_nodup_map timed.distinct _ pending same
    rw [split]
    exact mem_append_right _ mem_cons_self
  subst equal
  have fewer : (before ++ after).Sublist timers.timeouts := by
    rw [split]
    exact (sublist_cons_self _ _).append_left _
  refine ⟨⟨Timers.cancel_nodup cancelled timed.distinct, ?_⟩, ?_, ?_, ?_⟩
  · rw [erased]
    exact timed.sorted.sublist fewer
  · have whole : (viewOf timers slot).Perm (found :: (before ++ after).filter
        fun other => other.callback.slot = slot) := by
      rw [viewOf, split, filter_append, filter_append, filter_cons_of_pos (by exact owned)]
      exact perm_middle
    rw [viewOf, erased]
    exact (whole.symm.trans held).cons_inv
  · intro other different
    have foreign : ¬ decide (found.callback.slot = other) = true := by
      rw [decide_eq_true_eq, of_decide_eq_true owned]
      exact different.symm
    rw [viewOf, erased, viewOf, split, filter_append, filter_append,
      filter_cons_of_neg (by exact foreign)]
  · intro timeout member
    rw [erased] at member
    exact fewer.subset member

/-- The first timeout fires. -/
theorem Timed.fired (timed : Timed timers) {timeout : Timeout Callback}
    {rest : List (Timeout Callback)} (first : timers.timeouts = timeout :: rest) :
    Timed { timers with timeouts := rest } ∧
      viewOf timers timeout.callback.slot =
        timeout :: viewOf { timers with timeouts := rest } timeout.callback.slot ∧
      (∀ other ≠ timeout.callback.slot,
        viewOf { timers with timeouts := rest } other = viewOf timers other) ∧
      ∀ later ∈ rest, timeout.due ≤ later.due := by
  have distinct := timed.distinct
  have sorted := timed.sorted
  rw [Timers.ids, first, map_cons] at distinct
  rw [first, pairwise_cons] at sorted
  refine ⟨⟨distinct.of_cons, sorted.2⟩, ?_, ?_, sorted.1⟩
  · rw [viewOf, first, filter_cons_of_pos (by simp)]
    rfl
  · intro other different
    rw [viewOf, viewOf, first, filter_cons_of_neg (by simpa using different.symm)]

/-- Every timeout belongs to a slot, and each slot has only a few. -/
theorem length_le_views (timeouts : List (Timeout Callback)) (bound count : Nat)
    (owned : ∀ timeout ∈ timeouts, timeout.callback.slot < count)
    (few : ∀ slot < count, (timeouts.filter fun timeout =>
      timeout.callback.slot = slot).length ≤ bound) : timeouts.length ≤ bound * count := by
  induction count generalizing timeouts with
  | zero =>
    cases timeouts with
    | nil => exact Nat.zero_le _
    | cons timeout rest => exact absurd (owned timeout mem_cons_self) (Nat.not_lt_zero _)
  | succ count hypothesis =>
    have split := @List.length_eq_length_filter_add _ timeouts
      fun timeout => timeout.callback.slot = count
    have last := few count (Nat.lt_succ_self _)
    have rest := hypothesis (timeouts.filter fun timeout =>
        !decide (timeout.callback.slot = count)) (by
      intro timeout member
      obtain ⟨inside, other⟩ := mem_filter.mp member
      have small := owned timeout inside
      have different : timeout.callback.slot ≠ count := by simpa using other
      omega) (by
      intro slot small
      refine le_trans (Sublist.length_le ?_) (few slot (Nat.lt_succ_of_lt small))
      exact List.Sublist.filter _ filter_sublist)
    rw [split, Nat.mul_succ]
    omega

end Views

section Slots

variable {slot : Nat} {tag : FdTag} {view : List (Timeout Callback)}

/-- Only the inactivity timeout is pending. -/
def Armed (slot : Nat) (tag : FdTag) (view : List (Timeout Callback)) : Prop :=
  ∃ due, view = [⟨due, tag.inactivityTimeout, .inactive slot⟩]

/-- The denial comes before the connection is inactive for too long. -/
def Denying (slot : Nat) (tag : FdTag) (view : List (Timeout Callback)) : Prop :=
  ∃ soon late, soon < late ∧ view.Perm [⟨soon, tag.conn.denialTimeout, .denial slot⟩,
    ⟨late, tag.inactivityTimeout, .inactive slot⟩]

/-- Both timeouts are pending while the slot waits for the denial. -/
def Watched (slot : Nat) (tag : FdTag) (view : List (Timeout Callback)) : Prop :=
  if tag.conn.position = .waitDenial then Denying slot tag view else Armed slot tag view

/-- What holds of an open connection. -/
structure Open (slot : Nat) (tag : FdTag) (view : List (Timeout Callback)) : Prop where
  small : slot < maxConn
  number : tag.fd ≠ none
  alive : tag.closed = false
  active : tag.inactivityTimeoutActive = true
  owner : tag.conn.tag = some slot
  sound : tag.conn.Sound
  ready : tag.conn.Ready
  watched : Watched slot tag view

/-- What holds of a closed one. -/
structure Shut (slot : Nat) (tag : FdTag) (view : List (Timeout Callback)) : Prop where
  number : tag.fd = none
  inactive : tag.inactivityTimeoutActive = false
  owner : ∀ other, tag.conn.tag = some other → other = slot
  sound : tag.conn.Sound
  idle : view = []

/-- A slot is either open or shut. -/
def Settled (slot : Nat) (tag : FdTag) (view : List (Timeout Callback)) : Prop :=
  Open slot tag view ∨ Shut slot tag view

theorem Watched.length (watched : Watched slot tag view) : view.length ≤ 2 := by
  rw [Watched] at watched
  split at watched
  · obtain ⟨soon, late, -, held⟩ := watched
    exact held.length_eq.le
  · obtain ⟨due, rfl⟩ := watched
    exact Nat.le_succ 1

/-- A slot never has more than two timeouts. -/
theorem Settled.length (settled : Settled slot tag view) : view.length ≤ 2 := by
  rcases settled with opened | shut
  · exact opened.watched.length
  · rw [shut.idle]
    exact Nat.zero_le 2

/-- A callback is at work on the slot, and the others are settled. -/
structure Around (slot : Nat) (world : World) : Prop where
  small : slot < maxConn
  timed : Timed world.timers
  recent : ∀ timeout ∈ world.timers.timeouts, timeout.due ≤ world.now + connTimeout
  others : ∀ other ≠ slot, Settled other (world.slots other) (world.view other)

variable {world after : World}

section

variable (around : Around slot world)
include around

theorem Around.few (few : (world.view slot).length ≤ 2) :
    world.timers.timeouts.length < MemPool.Machine.wide.limit := by
  have views : ∀ other, (world.view other).length ≤ 2 := by
    intro other
    by_cases same : other = slot
    · rw [same]
      exact few
    · exact (around.others other same).length
  have owned : ∀ timeout ∈ world.timers.timeouts, timeout.callback.slot < maxConn := by
    intro timeout member
    by_cases same : timeout.callback.slot = slot
    · rw [same]
      exact around.small
    · rcases around.others _ same with opened | shut
      · exact opened.small
      · have inside : timeout ∈ world.view timeout.callback.slot :=
          mem_filter.mpr ⟨member, decide_eq_true rfl⟩
        rw [shut.idle] at inside
        cases inside
  have total := length_le_views world.timers.timeouts 2 maxConn owned fun other _ => views other
  exact lt_of_le_of_lt total (by decide)

theorem Around.same (slots : ∀ other ≠ slot, after.slots other = world.slots other)
    (timers : after.timers = world.timers) (now : after.now = world.now) : Around slot after where
  small := around.small
  timed := by
    rw [timers]
    exact around.timed
  recent := by
    rw [timers, now]
    exact around.recent
  others other different := by
    rw [slots other different, World.view, timers]
    exact around.others other different

theorem Around.setTag (tag : FdTag) : Around slot (world.setTag slot tag) :=
  around.same (fun _ different => update_of_ne different _ _) rfl rfl

theorem Around.setConn (conn : ConnData) :
    Around slot (world.setConn slot conn) := around.setTag _

theorem Around.logWrapper (type : EventType) (reason : Option String)
    (username password : Option Bytes) :
    Around slot (logWrapper world slot type reason username password) :=
  around.same (fun _ _ => rfl) rfl rfl

theorem Around.timers {timers : Timers Callback} (timed : Timed timers)
    (views : ∀ other ≠ slot, viewOf timers other = viewOf world.timers other)
    (recent : ∀ timeout ∈ timers.timeouts, timeout.due ≤ world.now + connTimeout) :
    Around slot (world.setTimers timers) where
  small := around.small
  timed
  recent
  others other different := by
    have settled := around.others other different
    rw [World.view, ← views other different] at settled
    exact settled

/-- The loop always finds an identifier for a timeout of the slot. -/
theorem addTimeout_ok (few : (world.view slot).length ≤ 2) {delay : Nat} (positive : delay ≠ 0)
    (short : delay ≤ connTimeout) {callback : Callback} (own : callback.slot = slot) :
    ∃ id timers, world.addTimeout delay callback = .ok (id, world.setTimers timers) ∧
      Around slot (world.setTimers timers) ∧
      (viewOf timers slot).Perm (⟨world.now + delay, id, callback⟩ :: world.view slot) := by
  obtain ⟨id, timers, added⟩ := Timers.add_some (around.few few) world.now delay callback
  obtain ⟨timed, held, others, members⟩ := around.timed.add added positive
  rw [own] at held others
  refine ⟨id, timers, ?_, around.timers timed others ?_, held⟩
  · rw [World.addTimeout, added]
  · intro timeout member
    rcases members timeout member with rfl | old
    · exact Nat.add_le_add_left short world.now
    · exact around.recent timeout old

/-- Cancelling a pending timeout succeeds. -/
theorem cancelTimeout_ok {timeout : Timeout Callback} {rest : List (Timeout Callback)}
    (held : (world.view slot).Perm (timeout :: rest)) :
    ∃ timers, world.cancelTimeout timeout.id = .ok (world.setTimers timers) ∧
      Around slot (world.setTimers timers) ∧ (viewOf timers slot).Perm rest := by
  obtain ⟨timers, cancelled, timed, left, others, members⟩ := around.timed.cancel held
  refine ⟨timers, ?_, around.timers timed others ?_, left⟩
  · rw [World.cancelTimeout, cancelled]
  · exact fun timeout member => around.recent timeout (members timeout member)

end

end Slots

section Closing

variable {slot : Nat} {world : World}

/-- This is the world behind `conn_closed`, up to the timeouts. -/
def World.shut (world : World) (slot : Nat) (error : Bool) (reason : Option String)
    (timers : Timers Callback) : World where
  slots := update world.slots slot { world.slots slot with
    closed := true, inactivityTimeoutActive := false, fd := none }
  sockets := releaseFd world.sockets (world.slots slot).fd
  timers
  now := world.now
  log := world.log ++ if (world.slots slot).closed then [] else
    [⟨(world.slots slot).connection, if error then .lost else .disconnect, reason, none, none⟩]
  accepted := world.accepted
  closings := world.closings ++ [((world.slots slot).connection, slot)]
  reads := world.reads
  inputs := world.inputs

theorem shut_slots (world : World) (slot : Nat) (error : Bool) (reason : Option String)
    (timers : Timers Callback) :
    (world.shut slot error reason timers).slots slot = { world.slots slot with
      closed := true, inactivityTimeoutActive := false, fd := none } :=
  update_self _ _ _

/-- The flag tells the timeout that is pending. -/
def Flagged (slot : Nat) (tag : FdTag) (view : List (Timeout Callback)) : Prop :=
  if tag.inactivityTimeoutActive then Armed slot tag view else view = []

/-- Closing succeeds and leaves the slot no timeout. -/
theorem connClosed_ok (around : Around slot world)
    (flagged : Flagged slot (world.slots slot) (world.view slot)) (error : Bool)
    (reason : Option String) :
    ∃ timers, connClosed world (some slot) error reason = .ok (world.shut slot error reason timers) ∧
      Around slot (world.setTimers timers) ∧ viewOf timers slot = [] := by
  rw [Flagged] at flagged
  cases active : (world.slots slot).inactivityTimeoutActive with
  | false =>
    simp only [active] at flagged
    refine ⟨world.timers, ?_, around, flagged⟩
    cases closed : (world.slots slot).closed with
    | false => simp [connClosed, World.shut, World.setTag, logWrapper, ok_bind, closed, active]
    | true => simp [connClosed, World.shut, World.setTag, ok_bind, closed, active]
  | true =>
    simp only [active] at flagged
    obtain ⟨due, armed⟩ := flagged
    have held : (world.view slot).Perm
        [⟨due, (world.slots slot).inactivityTimeout, .inactive slot⟩] := by rw [armed]
    obtain ⟨timers, cancelled, kept, left⟩ := cancelTimeout_ok around held
    refine ⟨timers, ?_, kept, left.eq_nil⟩
    simp only [World.cancelTimeout] at cancelled
    split at cancelled
    case h_1 => cases cancelled
    case h_2 same =>
      cases cancelled
      cases closed : (world.slots slot).closed with
      | false =>
        simp [connClosed, World.shut, World.setTag, World.setTimers, logWrapper,
          World.cancelTimeout, ok_bind, closed, active, same]
      | true =>
        simp [connClosed, World.shut, World.setTag, World.setTimers, World.cancelTimeout, ok_bind,
          closed, active, same]

/-- The connection knows its slot, and the timeouts are those of its position. -/
structure Closable (slot : Nat) (tag : FdTag) (view : List (Timeout Callback)) : Prop where
  owner : tag.conn.tag = some slot
  denying : tag.conn.position = .waitDenial →
    tag.inactivityTimeoutActive = true ∧ Denying slot tag view
  flagged : tag.conn.position ≠ .waitDenial → Flagged slot tag view

theorem Open.closable {tag : FdTag} {view : List (Timeout Callback)} (opened : Open slot tag view) :
    Closable slot tag view where
  owner := opened.owner
  denying waits := by
    have watched := opened.watched
    rw [Watched, if_pos waits] at watched
    exact ⟨opened.active, watched⟩
  flagged other := by
    have watched := opened.watched
    rw [Watched, if_neg other] at watched
    rw [Flagged, if_pos opened.active]
    exact watched

/-- So does closing from our side. -/
theorem doClose_ok (around : Around slot world)
    (closable : Closable slot (world.slots slot) (world.view slot)) (error : Bool) :
    ∃ timers, doClose world slot error =
        .ok (world.shut slot error (world.conn slot).closeReason timers) ∧
      Around slot (world.setTimers timers) ∧ viewOf timers slot = [] := by
  by_cases waits : (world.conn slot).position = .waitDenial
  · obtain ⟨active, soon, late, -, held⟩ := closable.denying waits
    obtain ⟨middle, cancelled, kept, left⟩ := cancelTimeout_ok around held
    have flagged : Flagged slot ((world.setTimers middle).slots slot)
        ((world.setTimers middle).view slot) := by
      rw [Flagged, setTimers_slots, if_pos active]
      exact ⟨late, left.eq_singleton⟩
    obtain ⟨timers, closed, kept', idle⟩ := connClosed_ok kept flagged error
      (world.conn slot).closeReason
    refine ⟨timers, ?_, kept', idle⟩
    rw [doClose, if_pos waits, World.conn, cancelled, ok_bind]
    change connClosed (world.setTimers middle) (world.slots slot).conn.tag error
      (world.slots slot).conn.closeReason = _
    rw [closable.owner]
    exact closed
  · obtain ⟨timers, closed, kept, idle⟩ := connClosed_ok around (closable.flagged waits) error
      (world.conn slot).closeReason
    refine ⟨timers, ?_, kept, idle⟩
    rw [doClose, if_neg waits, ok_bind]
    change connClosed world (world.slots slot).conn.tag error _ = _
    rw [closable.owner]
    exact closed

/-- Nobody is at work, and all the slots are settled. -/
structure World.Settled (world : World) : Prop where
  timed : Timed world.timers
  recent : ∀ timeout ∈ world.timers.timeouts, timeout.due ≤ world.now + connTimeout
  slots : ∀ slot, Telnet.Settled slot (world.slots slot) (world.view slot)

theorem World.Settled.around (settled : world.Settled) (small : slot < maxConn) :
    Around slot world :=
  ⟨small, settled.timed, settled.recent, fun other _ => settled.slots other⟩

/-- The world is settled again once the slot is. -/
theorem Around.settled (around : Around slot world)
    (own : Telnet.Settled slot (world.slots slot) (world.view slot)) : world.Settled where
  timed := around.timed
  recent := around.recent
  slots other := by
    by_cases same : other = slot
    · rw [same]
      exact own
    · exact around.others other same

/-- A slot is settled after its connection was closed. -/
theorem settled_shut {timers : Timers Callback} (around : Around slot (world.setTimers timers))
    (idle : viewOf timers slot = []) (sound : (world.conn slot).Sound)
    (owner : ∀ other, (world.conn slot).tag = some other → other = slot) (error : Bool)
    (reason : Option String) : (world.shut slot error reason timers).Settled := by
  have kept : Around slot (world.shut slot error reason timers) :=
    around.same (fun _ different => update_of_ne different _ _) rfl rfl
  apply kept.settled
  right
  rw [shut_slots]
  exact ⟨rfl, rfl, owner, sound, idle⟩

end Closing

end Ucollect.Fake.Telnet
