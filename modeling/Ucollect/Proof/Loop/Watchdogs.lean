import Ucollect.Proof.Loop.Reconfiguration

/-
This file proves that the captured interfaces keep their captures and watchdogs in every run of the loop.
-/

namespace Ucollect.Interfaces
open Library List Option
open Core (Timers)

section Running

variable {loop final : Loop}

section

variable (sound : Sound loop)
include sound

theorem Sound.transfer (interfaces : final.interfaces = loop.interfaces)
    (opened : final.opened = loop.opened) (epoll : final.epoll = loop.epoll)
    (timers : final.timers = loop.timers) (fresh : loop.fresh ≤ final.fresh) : Sound final where
  owns := by
    rw [interfaces]
    exact sound.owns.transfer opened epoll timers fresh
  keys := by
    rw [interfaces]
    exact sound.keys
  ready := by
    rw [interfaces]
    exact sound.ready

theorem Sound.rewatched {timers : Timers Task}
    (watched : Watched timers (loop.interfaces.map Interface.holding)) :
    Sound { loop with timers } where
  owns := ⟨sound.owns.captured, watched, sound.owns.addresses, sound.owns.fresh, sound.owns.room⟩
  keys := sound.keys
  ready := sound.ready

theorem Sound.scheduled {task : Task} (other : ∀ address, task ≠ .watchdog address) (after : Nat) :
    Concludes (fun pair => Sound pair.2) (· = .noId) (loop.addTimeout after task) := by
  refine (addTimeout_concludes loop after task).weaken ?_ fun _ expected => expected
  rintro ⟨id, next⟩ ⟨added, changed⟩
  dsimp only at added changed
  rw [changed]
  have ids := Timers.add_nodup added sound.owns.watched.ids
  exact sound.rewatched (sound.owns.watched.same ids fun address =>
    Timers.add_pending_other _ added (other address))

theorem Sound.cancelOther (id : Nat) : Concludes Sound (· = .noId) (loop.cancelOther id) := by
  rw [Loop.cancelOther]
  split_ifs with own
  · simp only [List.any_eq_true, decide_eq_true_eq] at own
    obtain ⟨timeout, member, same, callback⟩ := own
    have pending : id ∈ loop.timers.pending .other :=
      Timers.mem_pending.mpr ⟨timeout, member, callback, same⟩
    obtain ⟨timers, cancelled⟩ := cancel_some pending
    rw [Loop.cancelTimeout, cancelled]
    have ids := sound.owns.watched.ids
    refine sound.rewatched (sound.owns.watched.same (Timers.cancel_nodup cancelled ids) ?_)
    intro address
    refine Timers.cancel_pending_other _ cancelled fun there => ?_
    cases Timers.pending_unique ids pending there
  · exact sound

theorem Sound.find {holding : Holding} (member : holding ∈ loop.interfaces.map Interface.holding) :
    ∃ interface ∈ loop.interfaces, interface.holding = holding ∧
      loop.find holding.address = .ok interface := by
  obtain ⟨interface, inside, rfl⟩ := List.mem_map.mp member
  refine ⟨interface, inside, rfl, ?_⟩
  rw [Loop.find]
  cases found : loop.interfaces.find? fun other => other.address = interface.holding.address with
  | none =>
    have rejected := List.find?_eq_none.mp found interface inside
    simp only [decide_eq_true_eq] at rejected
    exact absurd rfl rejected
  | some other =>
    have matching := List.find?_some found
    simp only [decide_eq_true_eq] at matching
    have addresses := sound.owns.addresses
    rw [List.map_map] at addresses
    rw [inj_on_of_nodup_map addresses (mem_of_find?_eq_some found) inside matching]

/-- One interface may change what it has besides its captures. -/
theorem Sound.replaced {interface : Interface} (member : interface ∈ loop.interfaces)
    {change : Interface → Interface}
    (interfaces : final.interfaces = (loop.modify interface.address change).interfaces)
    (owns : ∀ live, Owns loop (interface.holding :: live) [] →
      Owns final ((change interface).holding :: live) [])
    (key : (change interface).key = interface.key)
    (ready : (change interface).registered = true ∧ (change interface).watchdogInitialized = true) :
    Sound final := by
  obtain ⟨before, after, split⟩ := append_of_mem member
  have holdings : (before ++ interface :: after).map Interface.holding =
      loop.interfaces.map Interface.holding := by rw [split]
  have middle (middle : Interface) : ((before ++ middle :: after).map Interface.holding).Perm
      (middle.holding :: (before ++ after).map Interface.holding) :=
    perm_middle.map Interface.holding
  have held := sound.owns
  rw [← holdings] at held
  have front := held.perm (middle interface) (List.Perm.refl _)
  have away := front.addresses
  rw [map_cons, nodup_cons, map_append, map_append, mem_append, not_or] at away
  -- No other interface has the address.
  have same (part : List Interface)
      (absent : interface.address ∉ (part.map Interface.holding).map Holding.address) :
      part.map (fun other => if other.address = interface.address then change other else other) =
        part := by
    refine (map_congr_left fun other inside => if_neg fun here => absent ?_).trans
      (List.map_id' part)
    rw [List.map_map]
    exact List.mem_map.mpr ⟨other, inside, here⟩
  have changed : final.interfaces = before ++ change interface :: after := by
    rw [interfaces, Loop.modify, split, map_append, map_cons, same before away.1.1,
      same after away.1.2, if_pos rfl]
  refine ⟨?_, ?_, ?_⟩
  · rw [changed]
    exact (owns _ front).perm (middle _).symm (List.Perm.refl _)
  · have keys := sound.keys
    rw [split, map_append, map_cons, ← key, ← map_cons, ← map_append] at keys
    rw [changed]
    exact keys
  · intro other inside
    rw [changed] at inside
    rcases mem_append.mp inside with front | back
    · exact sound.ready other (split ▸ mem_append_left _ front)
    · rcases mem_cons.mp back with rfl | later
      · exact ready
      · exact sound.ready other (split ▸ mem_append_right _ (mem_cons_of_mem _ later))

/-- The watchdog that has fired starts again. -/
theorem Sound.pcapWatchdog {timeout : Core.Timeout Task} {rest : List (Core.Timeout Task)}
    {address : Nat} (first : loop.timers.timeouts = timeout :: rest)
    (callback : timeout.callback = .watchdog address) :
    Concludes Sound (· = .noId)
      (Loop.pcapWatchdog { loop with timers := { loop.timers with timeouts := rest } } address) := by
  let popped : Loop := { loop with timers := { loop.timers with timeouts := rest } }
  have known : address ∈ (loop.interfaces.map Interface.holding).map Holding.address := by
    by_contra absent
    have none := sound.owns.watched.strays address absent
    rw [Timers.pending_fired first, if_pos callback] at none
    cases none
  obtain ⟨holding, member, rfl⟩ := List.mem_map.mp known
  obtain ⟨interface, inside, rfl, found⟩ := sound.find member
  rw [Loop.pcapWatchdog, show Loop.find popped interface.holding.address = .ok interface from found,
    ok_bind]
  refine Concludes.bind (addTimeout_concludes _ _ _) ?_
  rintro ⟨id, next⟩ ⟨added, same⟩
  obtain ⟨timers, rfl⟩ : ∃ timers, next = { popped with timers } := ⟨_, same⟩
  dsimp only at added
  refine sound.replaced inside rfl (fun live owns => ?_) rfl (sound.ready interface inside)
  obtain ⟨away, addresses⟩ := nodup_cons.mp owns.addresses
  exact ⟨owns.captured.timed id, (owns.watched.fired away first callback).added away added, owns.addresses,
    owns.fresh, forall_mem_cons.mpr (forall_mem_cons.mp owns.room)⟩

theorem Sound.pcapRead (capture : Nat) (error : Bool) :
    Concludes Sound (· = .noId) (loop.pcapRead capture error) := by
  rw [Loop.pcapRead]
  cases registered : loop.epoll capture with
  | none => exact sound
  | some address =>
    obtain ⟨holding, member, own, rfl⟩ := (sound.owns.captured.epoll capture address).mp registered
    obtain ⟨interface, inside, rfl, found⟩ := sound.find member
    have own : capture ∈ interface.captures := own
    have opened : capture ∈ loop.opened := (sound.owns.captured.opened capture).mpr
      (mem_append_left _ (mem_flatMap.mpr ⟨_, member, own⟩))
    dsimp only
    rw [found, ok_bind, if_neg (not_or.mpr ⟨not_not.mpr own, not_not.mpr opened⟩)]
    exact sound.replaced inside rfl (fun live owns => owns.transfer rfl rfl rfl le_rfl) rfl
      (sound.ready interface inside)

/-- A timeout is taken out before its callback runs. -/
theorem Sound.fire : Concludes Sound (· = .noId) loop.fire := by
  rw [Loop.fire]
  cases first : loop.timers.timeouts with
  | nil => exact sound
  | cons timeout rest =>
    dsimp only
    split_ifs
    · exact sound
    · have popped (other : ∀ address, timeout.callback ≠ .watchdog address) :
          Sound { loop with timers := { loop.timers with timeouts := rest } } := by
        have ids := sound.owns.watched.ids
        rw [Timers.ids, first, map_cons, nodup_cons] at ids
        refine sound.rewatched (sound.owns.watched.same ids.2 fun address => ?_)
        rw [Timers.pending_fired first, if_neg (other address)]
      cases callback : timeout.callback with
      | watchdog address => exact sound.pcapWatchdog first callback
      | selfReconfigure =>
        have gone := popped fun address same => by
          rw [callback] at same
          cases same
        exact gone.transfer rfl rfl rfl rfl le_rfl
      | other =>
        exact popped fun address same => by
          rw [callback] at same
          cases same

end

/-- Each interface finds itself when all of them are copied. -/
theorem Prepared.copyAll {start : Loop} {configurator : Configurator} (sound : Sound start)
    (prepared : Prepared start configurator) (opens : Opens) {interfaces : List Interface}
    (known : ∀ interface ∈ interfaces, interface.key ∈ start.interfaces.map Interface.key)
    (distinct : (configurator.interfaces.map Interface.key ++
      interfaces.map Interface.key).Nodup) :
    ∃ next, configurator.copyAll opens interfaces = .ok next ∧ Prepared start next := by
  induction interfaces generalizing configurator with
  | nil => exact ⟨configurator, rfl, prepared⟩
  | cons interface rest ih =>
    rw [forall_mem_cons] at known
    have copied := prepared.addPcap_done interface.name interface.promiscuous opens
    rw [show decide ((interface.name, interface.promiscuous) ∈
      start.interfaces.map Interface.key) = true from decide_eq_true known.1, Bool.true_or] at copied
    cases added : configurator.addPcap interface.name interface.promiscuous opens with
    | mk done next =>
      rw [added] at copied
      have succeeded : done = true := copied
      obtain ⟨kept, keys⟩ := prepared.addPcap sound (fun there =>
        disjoint_of_nodup_append distinct there mem_cons_self) added
      rw [succeeded, if_pos rfl] at keys
      obtain ⟨last, all, final⟩ := ih kept known.2 (by
        rw [keys, append_assoc]
        exact distinct)
      refine ⟨last, ?_, final⟩
      rw [Configurator.copyAll, added, succeeded]
      exact all

theorem Sound.recover (sound : Sound loop) (opens : Opens) :
    Concludes Sound (· = .noId) (loop.recover opens) := by
  obtain ⟨configurator, copied, prepared⟩ := (Prepared.empty sound).copyAll sound opens
    (fun interface member => List.mem_map_of_mem member) sound.keys
  rw [Loop.recover, copied, ok_bind]
  exact (prepared.commit sound).weaken (fun _ committed => committed.1) fun _ expected => expected

theorem reload_eq (asked : loop.reconfigure = true) (sections : List Section) :
    loop.reload sections =
      (if loop.reconfigureFull then loopConfigCommit (loopConfigStart { loop with reconfigure := false })
        else .ok { loop with reconfigure := false }) >>= fun loop =>
          loadConfig sections { loop with reconfigureFull := false } >>= fun pair =>
            if pair.1 then .ok { pair.2 with retryReconfigureOnFailure := false }
            else if pair.2.retryReconfigureOnFailure then
              pair.2.addTimeout ifaceReconfigureTime .selfReconfigure >>= fun pair => .ok pair.2
            else .ok pair.2 := by
  rw [Loop.reload, if_pos asked]
  cases loop.reconfigureFull <;> rfl

/-- A full change gives up everything first. -/
theorem Sound.reload (sound : Sound loop) {sections : List Section}
    (distinct : (sections.filterMap Section.key).Nodup) :
    Concludes Sound (· = .noId) (loop.reload sections) := by
  cases asked : loop.reconfigure with
  | false =>
    rw [Loop.reload, if_neg (ne_true_of_eq_false asked)]
    exact sound
  | true =>
    have ready : Sound { loop with reconfigure := false } := sound.transfer rfl rfl rfl rfl le_rfl
    have wiped : Concludes Sound (· = .noId) (if loop.reconfigureFull then
        loopConfigCommit (loopConfigStart { loop with reconfigure := false })
        else .ok { loop with reconfigure := false }) := by
      split_ifs
      · exact ((Prepared.empty ready).commit ready).weaken (fun _ committed => committed.1)
          fun _ expected => expected
      · exact ready
    rw [reload_eq asked]
    apply wiped.bind
    intro next kept
    have clean : Sound { next with reconfigureFull := false } := kept.transfer rfl rfl rfl rfl le_rfl
    apply (loadConfig_loaded clean distinct).bind
    rintro ⟨done, last⟩ loaded
    have last := loaded.sound
    split_ifs
    · exact last.transfer rfl rfl rfl rfl le_rfl
    · apply (last.scheduled (fun _ => Task.noConfusion) _).bind
      exact fun _ scheduled => scheduled
    · exact last

/-- A configuration names an interface once. -/
def Event.Distinct : Event → Prop
  | .reload sections => (sections.filterMap Section.key).Nodup
  | _ => True

theorem Sound.step (sound : Sound loop) {event : Event} (distinct : event.Distinct) :
    Concludes Sound (· = .noId) (loop.step event) := by
  cases event with
  | wait elapsed => exact sound.transfer rfl rfl rfl rfl le_rfl
  | hup => exact sound.transfer rfl rfl rfl rfl le_rfl
  | usr1 => exact sound.transfer rfl rfl rfl rfl le_rfl
  | reload sections => exact sound.reload distinct
  | crash opens => exact sound.recover opens
  | fire => exact sound.fire
  | read capture error => exact sound.pcapRead capture error
  | addOther after =>
    apply (sound.scheduled (fun _ => Task.noConfusion) after).bind
    exact fun _ scheduled => scheduled
  | cancelOther id => exact sound.cancelOther id

theorem Sound.create : Sound Loop.create := by
  have captured : Captured ∅ (fun _ => none) [] [] := by
    refine ⟨nodup_nil, fun capture => ?_, fun capture address => ?_⟩
    · exact iff_of_false (Finset.notMem_empty capture) not_mem_nil
    · exact iff_of_false (some_ne_none address).symm fun held =>
        absurd held.choose_spec.1 not_mem_nil
  have watched : Watched ⟨[], 0⟩ [] :=
    ⟨nodup_nil, fun _ member => absurd member not_mem_nil, fun _ _ => rfl⟩
  refine ⟨⟨captured, watched, nodup_nil, ?_, ?_⟩, nodup_nil, ?_⟩
  · exact fun capture member => absurd member (Finset.notMem_empty capture)
  · exact fun _ member => absurd member not_mem_nil
  · exact fun _ member => absurd member not_mem_nil

/-- Whatever happens, the interfaces keep exactly their captures and watchdogs. -/
theorem daemon_sound (sections : List Section) (events : List Event)
    (first : (sections.filterMap Section.key).Nodup) (distinct : ∀ event ∈ events, event.Distinct) :
    Concludes Sound (· = .noId) (daemon sections events) := by
  rw [daemon]
  apply (loadConfig_loaded Sound.create first).bind
  rintro ⟨done, loop⟩ loaded
  dsimp only
  split_ifs
  · exact concludes_foldlM loaded.sound fun next sound event member =>
      sound.step (distinct event member)
  · exact loaded.sound

theorem daemon_sound_reloaded :
    Concludes Sound (· = .noId)
      (daemon [.interface (some "eth0") none ⟨true, true⟩, .other true]
        [.read 0 false, .usr1, .reload [.interface (some "eth1") (some "0") ⟨true, true⟩]]) := by
  refine daemon_sound _ _ (by decide) ?_
  simp only [forall_mem_cons, Event.Distinct]
  exact ⟨trivial, trivial, by decide, forall_mem_nil _⟩

-- An interface that is configured twice is copied twice, and its watchdog can be cancelled only once.
example :
    (match daemon [.interface (some "eth0") none ⟨true, true⟩, .interface (some "eth0") none ⟨true, true⟩]
      [.hup, .reload [.interface (some "eth0") none ⟨true, true⟩,
        .interface (some "eth0") none ⟨true, true⟩]] with
      | .error .noTimer => true
      | _ => false) = true := by
  decide

/-- A change of the configuration follows the sections, or it has no effect. -/
theorem reload_exact {sections again : List Section} {events : List Event}
    (first : (sections.filterMap Section.key).Nodup) (distinct : ∀ event ∈ events, event.Distinct)
    (reached : daemon sections events = .ok loop) (once : (again.filterMap Section.key).Nodup) :
    Concludes (fun pair => Loaded loop again pair.1 pair.2) (· = .noId) (loadConfig again loop) :=
  loadConfig_loaded ((daemon_sound sections events first distinct).value reached) once

theorem reload_exact_extended :
    ∃ loop, daemon [.interface (some "eth0") none ⟨true, true⟩] [.hup] = .ok loop ∧
      Concludes (fun pair => Loaded loop [.interface (some "eth1") none ⟨true, false⟩] pair.1 pair.2)
        (· = .noId) (loadConfig [.interface (some "eth1") none ⟨true, false⟩] loop) := by
  refine ⟨_, rfl, ?_⟩
  refine @reload_exact _ [.interface (some "eth0") none ⟨true, true⟩]
    [.interface (some "eth1") none ⟨true, false⟩] [.hup] (by decide) ?_ rfl (by decide)
  simp only [forall_mem_cons, Event.Distinct]
  exact ⟨trivial, forall_mem_nil _⟩

end Running

end Ucollect.Interfaces
