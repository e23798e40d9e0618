import Ucollect.Construction.Core.Interfaces
import Ucollect.Proof.Uplink.Timeouts

/-
This file proves that every captured interface keeps its descriptors and its watchdog through all
changes of the configuration, and that nothing else stays open.
-/

namespace Ucollect.Interfaces
open Library List Function
open Core (Timers)

/-- This is what an interface holds while it is registered. -/
structure Holding where
  address : Nat
  pcapIn : Nat
  pcapOut : Nat
  timer : Nat

def Holding.captures (holding : Holding) : List Nat := [holding.pcapIn, holding.pcapOut]

def Interface.holding (interface : Interface) : Holding :=
  ⟨interface.address, interface.pcapIn, interface.pcapOut, interface.watchdogTimer⟩

section Watchdogs

/-- Each holding has its watchdog, and there is no other one. -/
structure Watched (timers : Timers Task) (live : List Holding) : Prop where
  ids : timers.ids.Nodup
  own : ∀ holding ∈ live, timers.pending (.watchdog holding.address) = [holding.timer]
  strays : ∀ address, address ∉ live.map Holding.address → timers.pending (.watchdog address) = []

variable {timers next : Timers Task} {live other : List Holding} {holding : Holding}

theorem Watched.perm (watched : Watched timers live) (order : live.Perm other) :
    Watched timers other where
  ids := watched.ids
  own := fun holding member => watched.own holding (order.mem_iff.mpr member)
  strays := fun address absent => watched.strays address fun member =>
    absent ((order.map Holding.address).mem_iff.mp member)

/-- The timeouts of the other parts may change. -/
theorem Watched.same (watched : Watched timers live) (ids : next.ids.Nodup)
    (pending : ∀ address, next.pending (.watchdog address) = timers.pending (.watchdog address)) :
    Watched next live where
  ids
  own := fun holding member => (pending _).trans (watched.own holding member)
  strays := fun address absent => (pending _).trans (watched.strays address absent)

section

variable (watched : Watched timers (holding :: live))
include watched

/-- A watchdog that is gone leaves the other ones alone. -/
theorem Watched.removed (away : holding.address ∉ live.map Holding.address) (ids : next.ids.Nodup)
    (gone : next.pending (.watchdog holding.address) = [])
    (others : ∀ address, address ≠ holding.address →
      next.pending (.watchdog address) = timers.pending (.watchdog address)) :
    Watched next live where
  ids
  own := by
    intro other member
    rw [others _ fun same => away (List.mem_map.mpr ⟨other, member, same⟩)]
    exact watched.own other (mem_cons_of_mem _ member)
  strays := by
    intro address absent
    by_cases same : address = holding.address
    · rw [same]
      exact gone
    · rw [others address same]
      refine watched.strays address fun member => ?_
      rcases mem_cons.mp member with here | later
      · exact same here
      · exact absent later

theorem Watched.cancelled (away : holding.address ∉ live.map Holding.address)
    (cancelled : timers.cancel holding.timer = some next) : Watched next live := by
  have own := watched.own holding mem_cons_self
  refine watched.removed away (Timers.cancel_nodup cancelled watched.ids)
    (Timers.cancel_pending cancelled watched.ids own) fun address different => ?_
  refine Timers.cancel_pending_other _ cancelled fun present => different ?_
  have same := Timers.pending_unique watched.ids present (own ▸ mem_singleton_self _)
  exact Task.watchdog.inj same

theorem Watched.fired (away : holding.address ∉ live.map Holding.address)
    {timeout : Core.Timeout Task} {rest : List (Core.Timeout Task)}
    (first : timers.timeouts = timeout :: rest)
    (callback : timeout.callback = .watchdog holding.address) :
    Watched { timers with timeouts := rest } live := by
  have ids := watched.ids
  rw [Timers.ids, first, map_cons, nodup_cons] at ids
  refine watched.removed away ids.2 ?_ fun address different => ?_
  · have own := watched.own holding mem_cons_self
    rw [Timers.pending_fired first, if_pos callback] at own
    exact (List.cons.inj own).2
  · rw [Timers.pending_fired first, if_neg]
    rw [callback]
    exact fun same => different (Task.watchdog.inj same).symm

end

theorem Watched.added (watched : Watched timers live) {now after : Nat}
    (new : holding.address ∉ live.map Holding.address)
    (added : timers.add .wide now after (.watchdog holding.address) = some (holding.timer, next)) :
    Watched next (holding :: live) := by
  have others (address : Nat) (different : holding.address ≠ address) :
      next.pending (.watchdog address) = timers.pending (.watchdog address) :=
    Timers.add_pending_other _ added fun same => different (Task.watchdog.inj same)
  refine ⟨Timers.add_nodup added watched.ids, ?_, ?_⟩
  · intro other member
    rcases mem_cons.mp member with rfl | later
    · exact Timers.add_pending added (watched.strays _ new)
    · rw [others _ fun same => new (List.mem_map.mpr ⟨other, later, same.symm⟩)]
      exact watched.own other later
  · intro address absent
    rw [map_cons, mem_cons, not_or] at absent
    rw [others _ (Ne.symm absent.1)]
    exact watched.strays address absent.2

theorem cancel_some {id : Nat} {task : Task} (pending : id ∈ timers.pending task) :
    ∃ next, timers.cancel id = some next := by
  obtain ⟨timeout, member, _, same⟩ := Timers.mem_pending.mp pending
  exact ⟨_, if_pos (List.mem_map.mpr ⟨timeout, member, same⟩)⟩

end Watchdogs

section Captures

/-- The captures that are open belong to the holdings or wait, and the holdings get their events. -/
structure Captured (opened : Finset Nat) (epoll : Nat → Option Nat) (live : List Holding)
    (spare : List Nat) : Prop where
  captures : (live.flatMap Holding.captures ++ spare).Nodup
  opened : ∀ capture, capture ∈ opened ↔ capture ∈ live.flatMap Holding.captures ++ spare
  epoll : ∀ capture address, epoll capture = some address ↔
    ∃ holding ∈ live, capture ∈ holding.captures ∧ holding.address = address

variable {opened : Finset Nat} {epoll : Nat → Option Nat} {live other : List Holding}
  {spare rest : List Nat} {holding holder : Holding} {capture : Nat}

theorem Captured.perm (captured : Captured opened epoll live spare) (order : live.Perm other)
    (order' : spare.Perm rest) : Captured opened epoll other rest := by
  have all : (live.flatMap Holding.captures ++ spare).Perm (other.flatMap Holding.captures ++ rest) :=
    (order.flatMap_right _).append order'
  refine ⟨all.nodup_iff.mp captured.captures,
    fun capture => (captured.opened capture).trans all.mem_iff, fun capture address => ?_⟩
  rw [captured.epoll]
  simp only [order.mem_iff]

theorem Captured.timed (captured : Captured opened epoll (holding :: live) spare) (timer : Nat) :
    Captured opened epoll ({ holding with timer } :: live) spare := by
  refine ⟨captured.captures, captured.opened, fun capture address => ?_⟩
  rw [captured.epoll]
  simp only [mem_cons, exists_eq_or_imp]
  rfl

theorem captures_perm (holding : Holding) (live : List Holding) (spare : List Nat) :
    ((holding :: live).flatMap Holding.captures ++ spare).Perm
      (live.flatMap Holding.captures ++ (holding.captures ++ spare)) := by
  rw [flatMap_cons, append_assoc]
  exact perm_append_comm_assoc _ _ _

theorem Holding.mem_captures :
    capture ∈ holding.captures ↔ capture = holding.pcapIn ∨ capture = holding.pcapOut := by
  rw [captures, mem_cons, mem_singleton]

theorem captures_away
    (distinct : (live.flatMap Holding.captures ++ (holding.captures ++ spare)).Nodup)
    (member : holder ∈ live) (own : capture ∈ holder.captures) :
    capture ≠ holding.pcapIn ∧ capture ≠ holding.pcapOut := by
  rw [← not_or, ← Holding.mem_captures]
  exact fun waits => disjoint_of_nodup_append distinct
    (mem_flatMap.mpr ⟨holder, member, own⟩) (mem_append_left _ waits)

/-- The captures stay open when nobody gets their events. -/
theorem Captured.release (captured : Captured opened epoll (holding :: live) spare) :
    Captured opened (update (update epoll holding.pcapIn none) holding.pcapOut none)
      live (holding.captures ++ spare) := by
  have all := captures_perm holding live spare
  have distinct := all.nodup_iff.mp captured.captures
  refine ⟨distinct, fun capture => (captured.opened capture).trans all.mem_iff, ?_⟩
  intro capture address
  simp only [update_apply]
  constructor
  · intro found
    split_ifs at found with out into
    obtain ⟨holder, member, own, same⟩ := (captured.epoll capture address).mp found
    rcases mem_cons.mp member with rfl | later
    · rcases Holding.mem_captures.mp own with here | here
      · exact absurd here into
      · exact absurd here out
    · exact ⟨holder, later, own, same⟩
  · rintro ⟨holder, member, own, same⟩
    obtain ⟨notIn, notOut⟩ := captures_away distinct member own
    rw [if_neg notOut, if_neg notIn]
    exact (captured.epoll capture address).mpr ⟨holder, mem_cons_of_mem _ member, own, same⟩

/-- The captures that wait are closed. -/
theorem Captured.close (captured : Captured opened epoll live (holding.captures ++ spare)) :
    Captured ((opened.erase holding.pcapIn).erase holding.pcapOut) epoll live spare := by
  have all : (live.flatMap Holding.captures ++ (holding.captures ++ spare)).Perm
      (holding.pcapIn :: holding.pcapOut :: (live.flatMap Holding.captures ++ spare)) :=
    perm_append_comm_assoc _ _ _
  have distinct := all.nodup_iff.mp captured.captures
  simp only [nodup_cons, mem_cons, not_or] at distinct
  obtain ⟨⟨apart, farIn⟩, farOut, rest⟩ := distinct
  refine ⟨rest, fun capture => ?_, captured.epoll⟩
  rw [Finset.mem_erase, Finset.mem_erase, captured.opened, all.mem_iff, mem_cons, mem_cons]
  constructor
  · rintro ⟨notOut, notIn, same | same | inside⟩
    · exact absurd same notIn
    · exact absurd same notOut
    · exact inside
  · intro inside
    exact ⟨fun same => farOut (same ▸ inside), fun same => farIn (same ▸ inside),
      Or.inr (Or.inr inside)⟩

/-- New captures wait for their interface. -/
theorem Captured.open_ (captured : Captured opened epoll live spare) {first second : Nat}
    (apart : first ≠ second) (newFirst : first ∉ opened) (newSecond : second ∉ opened) :
    Captured (insert first (insert second opened)) epoll live ([first, second] ++ spare) := by
  have all : (live.flatMap Holding.captures ++ ([first, second] ++ spare)).Perm
      (first :: second :: (live.flatMap Holding.captures ++ spare)) :=
    perm_append_comm_assoc _ _ _
  rw [captured.opened] at newFirst newSecond
  refine ⟨all.nodup_iff.mpr ?_, fun capture => ?_, captured.epoll⟩
  · rw [nodup_cons, nodup_cons, mem_cons, not_or]
    exact ⟨⟨apart, newFirst⟩, newSecond, captured.captures⟩
  · rw [all.mem_iff, mem_cons, mem_cons, Finset.mem_insert, Finset.mem_insert, captured.opened]

/-- The captures that wait lead to a structure. -/
theorem Captured.attach (captured : Captured opened epoll live (holding.captures ++ spare)) :
    Captured opened
      (update (update epoll holding.pcapIn (some holding.address)) holding.pcapOut
        (some holding.address)) (holding :: live) spare := by
  have all := captures_perm holding live spare
  refine ⟨all.nodup_iff.mpr captured.captures,
    fun capture => (captured.opened capture).trans all.mem_iff.symm, ?_⟩
  intro capture address
  simp only [update_apply, mem_cons, exists_eq_or_imp, ← captured.epoll]
  constructor
  · intro found
    split_ifs at found with out into
    · exact Or.inl ⟨Holding.mem_captures.mpr (Or.inr out), Option.some.inj found⟩
    · exact Or.inl ⟨Holding.mem_captures.mpr (Or.inl into), Option.some.inj found⟩
    · exact Or.inr found
  · rintro (⟨own, same⟩ | found)
    · rw [same]
      rcases Holding.mem_captures.mp own with here | here
      · rw [if_pos here, ite_self]
      · rw [if_pos here]
    · obtain ⟨holder, member, own, _⟩ := (captured.epoll capture address).mp found
      obtain ⟨notIn, notOut⟩ := captures_away captured.captures member own
      rw [if_neg notOut, if_neg notIn, found]

end Captures

section Destroying

/-- The registered holdings and the captures that are only open are everything that there is. -/
structure Owns (loop : Loop) (live : List Holding) (spare : List Nat) : Prop where
  captured : Captured loop.opened loop.epoll live spare
  watched : Watched loop.timers live
  addresses : (live.map Holding.address).Nodup
  fresh : ∀ capture ∈ loop.opened, capture < loop.fresh
  room : ∀ holding ∈ live, holding.address < loop.fresh

variable {loop final : Loop} {live other : List Holding} {spare rest : List Nat} {holding : Holding}
  {interface : Interface}

theorem Owns.perm (owns : Owns loop live spare) (order : live.Perm other) (order' : spare.Perm rest) :
    Owns loop other rest where
  captured := owns.captured.perm order order'
  watched := owns.watched.perm order
  addresses := (order.map Holding.address).nodup_iff.mp owns.addresses
  fresh := owns.fresh
  room := fun holding member => owns.room holding (order.mem_iff.mpr member)

/-- The interfaces and the flags have no part in what is held. -/
theorem Owns.transfer (owns : Owns loop live spare) (opened : final.opened = loop.opened)
    (epoll : final.epoll = loop.epoll) (timers : final.timers = loop.timers)
    (fresh : loop.fresh ≤ final.fresh) : Owns final live spare where
  captured := by
    rw [opened, epoll]
    exact owns.captured
  watched := by
    rw [timers]
    exact owns.watched
  addresses := owns.addresses
  fresh := by
    rw [opened]
    exact fun capture member => (owns.fresh capture member).trans_le fresh
  room := fun holding member => (owns.room holding member).trans_le fresh

/-- The captures of a holding stay open without a watchdog and without a structure. -/
def Loop.release (loop : Loop) (timers : Timers Task) (holding : Holding) : Loop :=
  { loop with
    timers
    epoll := update (update loop.epoll holding.pcapIn none) holding.pcapOut none }

theorem Owns.release (owns : Owns loop (holding :: live) spare) :
    ∃ timers, loop.timers.cancel holding.timer = some timers ∧
      Owns (loop.release timers holding) live (holding.captures ++ spare) := by
  have own := owns.watched.own holding mem_cons_self
  obtain ⟨timers, cancelled⟩ := cancel_some (own ▸ mem_singleton_self _)
  obtain ⟨away, addresses⟩ := nodup_cons.mp owns.addresses
  exact ⟨timers, cancelled, owns.captured.release, owns.watched.cancelled away cancelled, addresses,
    owns.fresh, fun holding member => owns.room holding (mem_cons_of_mem _ member)⟩

theorem Owns.close (owns : Owns loop live (holding.captures ++ spare)) :
    Owns { loop with opened := (loop.opened.erase holding.pcapIn).erase holding.pcapOut } live spare :=
  ⟨owns.captured.close, owns.watched, owns.addresses, fun capture member =>
    owns.fresh capture (Finset.mem_of_mem_erase (Finset.mem_of_mem_erase member)), owns.room⟩

theorem Owns.spare_open (owns : Owns loop live (holding.captures ++ spare)) :
    holding.pcapIn ≠ holding.pcapOut ∧ holding.pcapIn ∈ loop.opened ∧
      holding.pcapOut ∈ loop.opened := by
  have pair : holding.captures.Nodup := owns.captured.captures.of_append_right.of_append_left
  have opened (capture : Nat) (own : capture ∈ holding.captures) : capture ∈ loop.opened :=
    (owns.captured.opened _).mpr (mem_append_right _ (mem_append_left _ own))
  refine ⟨?_, opened _ mem_cons_self, opened _ (mem_cons_of_mem _ mem_cons_self)⟩
  simpa [Holding.captures] using pair

theorem closeDirection_ok {capture : Nat} (registered : Bool) (here : capture ∈ loop.opened) :
    loop.closeDirection registered capture =
      .ok { loop with
        epoll := if registered then update loop.epoll capture none else loop.epoll
        opened := loop.opened.erase capture } := by
  rw [Loop.closeDirection, if_neg (not_not.mpr here)]
  cases registered <;> rfl

theorem closeDirections_ok (registered : Bool) (apart : interface.pcapIn ≠ interface.pcapOut)
    (openIn : interface.pcapIn ∈ loop.opened) (openOut : interface.pcapOut ∈ loop.opened) :
    interface.captures.foldlM (fun loop => loop.closeDirection registered) loop =
      .ok { loop with
        epoll := if registered then
          update (update loop.epoll interface.pcapIn none) interface.pcapOut none
          else loop.epoll
        opened := (loop.opened.erase interface.pcapIn).erase interface.pcapOut } := by
  rw [Interface.captures, foldlM_cons, closeDirection_ok registered openIn, ok_bind, foldlM_cons,
    closeDirection_ok registered (Finset.mem_erase.mpr ⟨apart.symm, openOut⟩)]
  cases registered <;> rfl

/-- An interface that is not registered has only its captures. -/
theorem pcapDestroy_spare (owns : Owns loop live (interface.captures ++ spare))
    (registered : interface.registered = false) (initialized : interface.watchdogInitialized = false) :
    ∃ opened, loop.pcapDestroy interface = .ok { loop with opened } ∧
      Owns { loop with opened } live spare := by
  have waits : Owns loop live (interface.holding.captures ++ spare) := owns
  obtain ⟨apart, openIn, openOut⟩ := waits.spare_open
  have destroyed : loop.pcapDestroy interface =
      interface.captures.foldlM (fun loop => loop.closeDirection false) loop := by
    rw [Loop.pcapDestroy, initialized, registered]
    rfl
  exact ⟨_, destroyed.trans (closeDirections_ok false apart openIn openOut), waits.close⟩

/-- Both captures of an interface are closed, and its watchdog is cancelled. -/
theorem pcapDestroy_live (owns : Owns loop (interface.holding :: live) spare)
    (registered : interface.registered = true) (initialized : interface.watchdogInitialized = true) :
    ∃ final, loop.pcapDestroy interface = .ok final ∧ Owns final live spare ∧
      final.fresh = loop.fresh := by
  obtain ⟨timers, cancelled, released⟩ := owns.release
  obtain ⟨apart, openIn, openOut⟩ := released.spare_open
  have stopped : loop.timers.cancel interface.watchdogTimer = some timers := cancelled
  have destroyed : loop.pcapDestroy interface =
      interface.captures.foldlM (fun loop => loop.closeDirection true) { loop with timers } := by
    rw [Loop.pcapDestroy, initialized, registered, if_pos rfl, Loop.cancelTimeout, stopped]
    rfl
  exact ⟨_, destroyed.trans (@closeDirections_ok { loop with timers } interface true apart openIn
    openOut), released.close, rfl⟩

end Destroying

section Registering

variable {loop : Loop} {live : List Holding} {spare : List Nat} {interface : Interface}
  {holding : Holding}

/-- Two captures are opened for a new interface. -/
theorem Owns.open_ (owns : Owns loop live spare) :
    Owns { loop with
      opened := insert loop.fresh (insert (loop.fresh + 1) loop.opened)
      fresh := loop.fresh + 2 } live ([loop.fresh, loop.fresh + 1] ++ spare) := by
  have new (capture : Nat) (above : loop.fresh ≤ capture) : capture ∉ loop.opened :=
    fun there => absurd (owns.fresh capture there) (Nat.not_lt.mpr above)
  refine ⟨owns.captured.open_ (Nat.ne_of_lt (Nat.lt_succ_self _)) (new _ le_rfl)
    (new _ (Nat.le_succ _)), owns.watched, owns.addresses, ?_, fun holding member =>
    (owns.room holding member).trans (Nat.lt_add_of_pos_right (by decide))⟩
  intro capture member
  rw [Finset.mem_insert, Finset.mem_insert] at member
  rcases member with rfl | rfl | member
  · exact Nat.lt_add_of_pos_right (by decide)
  · exact Nat.lt_succ_self _
  · exact (owns.fresh capture member).trans (Nat.lt_add_of_pos_right (by decide))

theorem epollCtl_ok {op : EpollOp} {address capture : Nat}
    (known : (loop.epoll capture).isSome = (op == .mod)) :
    Loop.epollCtl op address loop capture =
      .ok { loop with epoll := update loop.epoll capture (some address) } := by
  unfold Loop.epollCtl
  cases op <;> cases found : loop.epoll capture <;> rw [found] at known <;> first | rfl | cases known

/-- Both captures lead to the structure of the interface, and its watchdog waits. -/
def Loop.attach (loop : Loop) (timers : Timers Task) (interface : Interface) : Loop :=
  { loop with
    timers
    epoll := update (update loop.epoll interface.pcapIn (some interface.address))
      interface.pcapOut (some interface.address) }

theorem epollRegisterPcap_ok {op : EpollOp} (apart : interface.pcapIn ≠ interface.pcapOut)
    (known : ∀ capture ∈ interface.captures, (loop.epoll capture).isSome = (op == .mod)) :
    loop.epollRegisterPcap interface op = .ok (loop.attach loop.timers interface) := by
  have other : (update loop.epoll interface.pcapIn (some interface.address)
      interface.pcapOut).isSome = (op == .mod) := by
    rw [update_of_ne apart.symm]
    exact known _ (mem_cons_of_mem _ mem_cons_self)
  rw [Loop.epollRegisterPcap, Interface.captures, foldlM_cons, epollCtl_ok (known _ mem_cons_self),
    ok_bind, foldlM_cons, epollCtl_ok other]
  rfl

/-- An interface that is committed differs from the prepared one by its watchdog. -/
def Interface.watched (interface : Interface) (id : Nat) : Interface :=
  { interface with
    registered := true
    watchdogTimer := id
    watchdogInitialized := true }

theorem Owns.attach {timers : Timers Task} {id after : Nat}
    (owns : Owns loop live (interface.captures ++ spare))
    (new : interface.address ∉ live.map Holding.address) (room : interface.address < loop.fresh)
    (added : loop.timers.add .wide loop.now after (.watchdog interface.address) = some (id, timers)) :
    Owns (loop.attach timers interface) ((interface.watched id).holding :: live) spare := by
  have waits : Captured loop.opened loop.epoll live ((interface.watched id).holding.captures ++ spare) :=
    owns.captured
  refine ⟨waits.attach, owns.watched.added new added, nodup_cons.mpr ⟨new, owns.addresses⟩,
    owns.fresh, ?_⟩
  exact forall_mem_cons.mpr ⟨room, owns.room⟩

/-- This is the holding of a copy before the copy takes it over. -/
def Interface.heldBy (interface : Interface) (address : Nat) : Holding :=
  ⟨address, interface.pcapIn, interface.pcapOut, interface.watchdogTimer⟩

/-- The search for an identifier is all that can stop a new timeout. -/
theorem addTimeout_concludes (loop : Loop) (after : Nat) (task : Task) :
    Concludes (fun pair : Nat × Loop =>
        loop.timers.add .wide loop.now after task = some (pair.1, pair.2.timers) ∧
          pair.2 = { loop with timers := pair.2.timers })
      (· = .noId) (loop.addTimeout after task) := by
  rw [Loop.addTimeout]
  cases added : loop.timers.add .wide loop.now after task with
  | none => rfl
  | some pair => exact ⟨rfl, rfl⟩

theorem commitInterface_eq (done : List Interface) :
    Loop.commitInterface (loop, done) interface =
      loop.epollRegisterPcap interface (if interface.mark then .add else .mod) >>= fun loop =>
        (if interface.mark then .ok loop else loop.cancelTimeout interface.watchdogTimer) >>=
          fun loop => loop.addTimeout pcapWatchdogTime (.watchdog interface.address) >>=
            fun pair => .ok (pair.2, done ++ [interface.watched pair.1]) := by
  unfold Loop.commitInterface
  split_ifs <;> rfl

/-- The captures of a copy change their structure, and its watchdog is replaced. -/
theorem commitInterface_copy {done : List Interface} {origin : Nat}
    (owns : Owns loop (interface.heldBy origin :: live) spare) (copied : interface.mark = false)
    (new : interface.address ∉ live.map Holding.address) (room : interface.address < loop.fresh) :
    Concludes (fun pair => ∃ id, pair.2 = done ++ [interface.watched id] ∧
        Owns pair.1 ((interface.watched id).holding :: live) spare ∧ pair.1.fresh = loop.fresh)
      (· = .noId) (Loop.commitInterface (loop, done) interface) := by
  obtain ⟨timers, cancelled, released⟩ := owns.release
  obtain ⟨apart, _, _⟩ := released.spare_open
  have registered : loop.epollRegisterPcap interface .mod = .ok (loop.attach loop.timers interface) := by
    refine epollRegisterPcap_ok apart fun capture own => ?_
    rw [(owns.captured.epoll capture origin).mpr ⟨_, mem_cons_self, own, rfl⟩]
    rfl
  have stopped : (loop.attach loop.timers interface).cancelTimeout interface.watchdogTimer =
      .ok (loop.attach timers interface) := by
    rw [Loop.cancelTimeout, show (loop.attach loop.timers interface).timers.cancel
      interface.watchdogTimer = some timers from cancelled]
    rfl
  rw [commitInterface_eq, copied, if_neg Bool.false_ne_true, registered, ok_bind,
    if_neg Bool.false_ne_true, stopped, ok_bind]
  refine Concludes.bind (addTimeout_concludes _ _ _) ?_
  rintro ⟨id, final⟩ ⟨added, changed⟩
  dsimp only at added changed
  have attached := @Owns.attach (loop.release timers (interface.heldBy origin)) live spare interface
    final.timers id pcapWatchdogTime released new room added
  -- Both captures are registered again before anything reads what was there.
  have same : (loop.release timers (interface.heldBy origin)).attach final.timers interface = final := by
    rw [changed]
    simp only [Loop.attach, Loop.release, Interface.heldBy]
    rw [update_comm (show interface.pcapOut ≠ interface.pcapIn from apart.symm), update_idem,
      update_idem]
  refine ⟨id, rfl, same ▸ attached, ?_⟩
  rw [changed]
  rfl

/-- The captures of a new interface become known, and its watchdog starts. -/
theorem commitInterface_new {done : List Interface}
    (owns : Owns loop live (interface.captures ++ spare)) (opened : interface.mark = true)
    (new : interface.address ∉ live.map Holding.address) (room : interface.address < loop.fresh) :
    Concludes (fun pair => ∃ id, pair.2 = done ++ [interface.watched id] ∧
        Owns pair.1 ((interface.watched id).holding :: live) spare ∧ pair.1.fresh = loop.fresh)
      (· = .noId) (Loop.commitInterface (loop, done) interface) := by
  have waits : Owns loop live (interface.holding.captures ++ spare) := owns
  have registered : loop.epollRegisterPcap interface .add = .ok (loop.attach loop.timers interface) := by
    refine epollRegisterPcap_ok waits.spare_open.1 fun capture own => ?_
    cases found : loop.epoll capture with
    | none => rfl
    | some address =>
      obtain ⟨holding, member, inside, _⟩ := (owns.captured.epoll capture address).mp found
      exact absurd (captures_away waits.captured.captures member inside)
        (not_and_or.mpr ((Holding.mem_captures.mp own).imp not_not_intro not_not_intro))
  rw [commitInterface_eq, opened, if_pos rfl, registered, ok_bind, if_pos rfl, ok_bind]
  refine Concludes.bind (addTimeout_concludes _ _ _) ?_
  rintro ⟨id, final⟩ ⟨added, changed⟩
  dsimp only at added changed
  have attached : Owns (loop.attach final.timers interface) _ spare := owns.attach new room added
  refine ⟨id, rfl, ?_, ?_⟩
  · rw [changed]
    exact attached
  · rw [changed]
    rfl

end Registering

end Ucollect.Interfaces
