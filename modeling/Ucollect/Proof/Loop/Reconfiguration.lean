import Ucollect.Proof.Loop.Interfaces

/-
This file proves what a change of the configuration does to the captured interfaces.
-/

namespace Ucollect.Interfaces
open Library List Option

section Committing

variable {loop : Loop} {live held : List Holding} {spare : List Nat}

theorem destroyAll_spare {gone : List Interface}
    (owns : Owns loop live (gone.flatMap Interface.captures ++ spare))
    (idle : ∀ interface ∈ gone, interface.registered = false ∧ interface.watchdogInitialized = false) :
    ∃ opened, gone.foldlM Loop.pcapDestroy loop = .ok { loop with opened } ∧
      Owns { loop with opened } live spare := by
  induction gone generalizing loop with
  | nil => exact ⟨loop.opened, rfl, owns⟩
  | cons interface gone ih =>
    rw [forall_mem_cons] at idle
    rw [flatMap_cons, append_assoc] at owns
    obtain ⟨opened, destroyed, next⟩ := pcapDestroy_spare owns idle.1.1 idle.1.2
    obtain ⟨final, rest, last⟩ := ih next idle.2
    refine ⟨final, ?_, last⟩
    rw [foldlM_cons, destroyed, ok_bind, rest]

theorem destroyAll_live {gone : List Interface}
    (owns : Owns loop (gone.map Interface.holding ++ live) spare)
    (ready : ∀ interface ∈ gone, interface.registered = true ∧ interface.watchdogInitialized = true) :
    ∃ final, gone.foldlM Loop.pcapDestroy loop = .ok final ∧ Owns final live spare ∧
      final.fresh = loop.fresh := by
  induction gone generalizing loop with
  | nil => exact ⟨loop, rfl, owns, rfl⟩
  | cons interface gone ih =>
    rw [forall_mem_cons] at ready
    obtain ⟨next, destroyed, kept, same⟩ := pcapDestroy_live owns ready.1.1 ready.1.2
    obtain ⟨final, rest, last, later⟩ := ih kept ready.2
    refine ⟨final, ?_, last, later.trans same⟩
    rw [foldlM_cons, destroyed, ok_bind, rest]

/-- These are the holdings that wait for their copies. -/
def waiting (origin : Interface → Nat) (todo : List Interface) : List Holding :=
  (todo.filter fun interface => !interface.mark).map fun interface =>
    interface.heldBy (origin interface)

theorem waiting_copy {origin : Interface → Nat} {interface : Interface} {todo : List Interface}
    (copied : interface.mark = false) :
    waiting origin (interface :: todo) = interface.heldBy (origin interface) :: waiting origin todo := by
  rw [waiting, filter_cons_of_pos (by rw [copied]; rfl), map_cons, waiting]

theorem waiting_new {origin : Interface → Nat} {interface : Interface} {todo : List Interface}
    (opened : interface.mark = true) :
    waiting origin (interface :: todo) = waiting origin todo := by
  rw [waiting, filter_cons_of_neg (by rw [opened]; decide), waiting]

/-- The copies take over what they wait for, and the new interfaces take what is only open. -/
theorem registerAll {origin : Interface → Nat} {todo done : List Interface}
    (owns : Owns loop (waiting origin todo ++ held)
      ((todo.filter Interface.mark).flatMap Interface.captures ++ spare))
    (apart : (todo.map Interface.address ++
      (waiting origin todo ++ held).map Holding.address).Nodup)
    (room : ∀ interface ∈ todo, interface.address < loop.fresh) :
    Concludes (fun pair => ∃ news, pair.2 = done ++ news ∧
        List.Forall₂ (fun interface new => ∃ id, new = interface.watched id) todo news ∧
        Owns pair.1 (news.map Interface.holding ++ held) spare ∧ pair.1.fresh = loop.fresh)
      (· = .noId) (todo.foldlM Loop.commitInterface (loop, done)) := by
  induction todo generalizing loop done held with
  | nil => exact ⟨[], (append_nil _).symm, .nil, owns, rfl⟩
  | cons interface todo ih =>
    rw [forall_mem_cons] at room
    rw [map_cons, cons_append, nodup_cons, mem_append, not_or] at apart
    obtain ⟨first, rest⟩ := apart
    have step : Concludes (fun pair => ∃ id, pair.2 = done ++ [interface.watched id] ∧
        Owns pair.1 ((interface.watched id).holding :: (waiting origin todo ++ held))
          ((todo.filter Interface.mark).flatMap Interface.captures ++ spare) ∧ pair.1.fresh = loop.fresh)
        (· = .noId) (Loop.commitInterface (loop, done) interface) := by
      cases opened : interface.mark with
      | false =>
        rw [waiting_copy opened, filter_cons_of_neg (by rw [opened]; decide)] at owns
        rw [waiting_copy opened] at first
        refine commitInterface_copy owns opened (fun member => first.2 ?_) room.1
        exact mem_cons_of_mem _ member
      | true =>
        rw [waiting_new opened, filter_cons_of_pos opened, flatMap_cons, append_assoc] at owns
        rw [waiting_new opened] at first
        exact commitInterface_new owns opened first.2 room.1
    -- The copy or the new interface moves from those to do to those that are held.
    have moved (id : Nat) : (todo.map Interface.address ++ (waiting origin todo ++
        (interface.watched id).holding :: held).map Holding.address).Nodup := by
      have order : (interface.address :: (todo.map Interface.address ++
          (waiting origin todo ++ held).map Holding.address)).Perm
          (todo.map Interface.address ++ (waiting origin todo ++
            (interface.watched id).holding :: held).map Holding.address) := by
        refine perm_middle.symm.trans (Perm.append_left _ ?_)
        exact (@List.perm_middle _ (interface.watched id).holding _ held).symm.map Holding.address
      refine order.nodup_iff.mp (nodup_cons.mpr ⟨?_, ?_⟩)
      · rw [mem_append, not_or]
        refine ⟨first.1, fun member => first.2 ?_⟩
        cases opened : interface.mark with
        | false =>
          rw [waiting_copy opened]
          exact mem_cons_of_mem _ member
        | true =>
          rw [waiting_new opened]
          exact member
      · cases opened : interface.mark with
        | false =>
          rw [waiting_copy opened] at rest
          refine rest.sublist (Sublist.append_left ?_ _)
          exact sublist_cons_self _ _
        | true =>
          rw [waiting_new opened] at rest
          exact rest
    rw [foldlM_cons]
    apply step.bind
    rintro ⟨next, committed⟩ ⟨id, rfl, owned, same⟩
    have later := @ih next ((interface.watched id).holding :: held) (done ++ [interface.watched id])
      (owned.perm perm_middle.symm (List.Perm.refl _)) (moved id) fun other member => by
        rw [same]
        exact room.2 other member
    refine later.weaken ?_ fun _ expected => expected
    rintro ⟨final, interfaces⟩ ⟨news, rfl, related, last, kept⟩
    refine ⟨interface.watched id :: news, append_assoc _ _ _, .cons ⟨id, rfl⟩ related, ?_,
      kept.trans same⟩
    exact last.perm perm_middle (List.Perm.refl _)

end Committing

section Preparing

/-- Each interface holds its captures and its watchdog, and nothing else is held. -/
structure Sound (loop : Loop) : Prop where
  owns : Owns loop (loop.interfaces.map Interface.holding) []
  keys : (loop.interfaces.map Interface.key).Nodup
  ready : ∀ interface ∈ loop.interfaces,
    interface.registered = true ∧ interface.watchdogInitialized = true

/-- An interface stays marked until it is copied. -/
def Interface.marked (interfaces : List Interface) (old : Interface) : Interface :=
  { old with mark := decide (old.key ∉ interfaces.map key) }

/-- The prepared interfaces are copies and newly opened ones, and nothing else has changed. -/
structure Prepared (start : Loop) (configurator : Configurator) : Prop where
  loop : configurator.loop = { start with
    interfaces := start.interfaces.map (Interface.marked configurator.interfaces)
    opened := configurator.loop.opened
    fresh := configurator.loop.fresh }
  owns : Owns configurator.loop (start.interfaces.map Interface.holding)
    ((configurator.interfaces.filter Interface.mark).flatMap Interface.captures)
  grows : start.fresh ≤ configurator.loop.fresh
  keys : (configurator.interfaces.map Interface.key).Nodup
  addresses : (configurator.interfaces.map Interface.address).Nodup
  apart : ∀ interface ∈ configurator.interfaces,
    start.fresh ≤ interface.address ∧ interface.address < configurator.loop.fresh
  copies : ∀ interface ∈ configurator.interfaces, interface.mark = false →
    ∃ old ∈ start.interfaces, interface = { old with mark := false, address := interface.address }
  news : ∀ interface ∈ configurator.interfaces, interface.mark = true →
    interface.key ∉ start.interfaces.map Interface.key ∧ interface.registered = false ∧
      interface.watchdogInitialized = false ∧
      ∀ capture ∈ interface.captures, start.fresh ≤ capture

variable {start : Loop} {configurator : Configurator}

theorem Prepared.empty (sound : Sound start) : Prepared start (loopConfigStart start) where
  loop := rfl
  owns := sound.owns.transfer rfl rfl rfl le_rfl
  grows := le_rfl
  keys := nodup_nil
  addresses := nodup_nil
  apart := fun _ member => absurd member not_mem_nil
  copies := fun _ member => absurd member not_mem_nil
  news := fun _ member => absurd member not_mem_nil

/-- One more interface gets the next structure. -/
theorem Prepared.extend (prepared : Prepared start configurator) {loop : Loop} {added : Interface}
    (unchanged : loop = { start with
      interfaces := start.interfaces.map (Interface.marked (configurator.interfaces ++ [added]))
      opened := loop.opened
      fresh := loop.fresh })
    (owns : Owns loop (start.interfaces.map Interface.holding)
      (((configurator.interfaces ++ [added]).filter Interface.mark).flatMap Interface.captures))
    (address : added.address = configurator.loop.fresh) (room : configurator.loop.fresh < loop.fresh)
    (new : added.key ∉ configurator.interfaces.map Interface.key)
    (copy : added.mark = false →
      ∃ old ∈ start.interfaces, added = { old with mark := false, address := added.address })
    (opened : added.mark = true → added.key ∉ start.interfaces.map Interface.key ∧
      added.registered = false ∧ added.watchdogInitialized = false ∧
      ∀ capture ∈ added.captures, start.fresh ≤ capture) :
    Prepared start ⟨loop, configurator.interfaces ++ [added]⟩ := by
  refine ⟨unchanged, owns, prepared.grows.trans room.le, ?_, ?_, ?_, ?_, ?_⟩
  · rw [map_append]
    exact prepared.keys.append (nodup_singleton _) (disjoint_singleton.mpr new)
  · rw [map_append]
    refine prepared.addresses.append (nodup_singleton _)
      (disjoint_singleton.mpr fun there => ?_)
    obtain ⟨other, inside, same⟩ := List.mem_map.mp there
    exact absurd (prepared.apart other inside).2 (same.trans address ▸ lt_irrefl _)
  all_goals
    intro other inside
    rcases mem_append.mp inside with before | here
  · exact ⟨(prepared.apart other before).1, (prepared.apart other before).2.trans room⟩
  · rw [mem_singleton.mp here, address]
    exact ⟨prepared.grows, room⟩
  · exact prepared.copies other before
  · rw [mem_singleton.mp here]
    exact copy
  · exact prepared.news other before
  · rw [mem_singleton.mp here]
    exact opened

/-- A copy takes the mark off its old interface. -/
theorem marked_unmark (sound : Sound start) {old other added : Interface} {interfaces : List Interface}
    (member : old ∈ start.interfaces) (inside : other ∈ start.interfaces)
    (same : added.key = old.key) :
    (if other.address = old.address then { other.marked interfaces with mark := false }
      else other.marked interfaces) = other.marked (interfaces ++ [added]) := by
  have addresses := sound.owns.addresses
  rw [List.map_map] at addresses
  rw [Interface.marked, Interface.marked, map_append, map_singleton, same]
  split_ifs with here
  · have this : other = old := inj_on_of_nodup_map addresses inside member here
    simp [this]
  · have different : other.key ≠ old.key := fun twice =>
      here (congrArg Interface.address (inj_on_of_nodup_map sound.keys inside member twice))
    simp [different]

/-- A new interface leaves the marks as they are. -/
theorem marked_new {other added : Interface} {interfaces : List Interface}
    (different : other.key ≠ added.key) :
    other.marked interfaces = other.marked (interfaces ++ [added]) := by
  rw [Interface.marked, Interface.marked, map_append]
  simp [different]

theorem find_marked (interfaces : List Interface) (name : String) (promiscuous : Bool) :
    ((start.interfaces.map (Interface.marked interfaces)).find? fun old =>
        old.name = name ∧ old.promiscuous = promiscuous) =
      (start.interfaces.find? fun old => old.name = name ∧ old.promiscuous = promiscuous).map
        (Interface.marked interfaces) := by
  rw [List.find?_map]
  rfl

/-- A new key is copied or opened, or nothing happens. -/
theorem Prepared.addPcap (sound : Sound start) (prepared : Prepared start configurator)
    {name : String} {promiscuous : Bool} {opens : Opens}
    (new : (name, promiscuous) ∉ configurator.interfaces.map Interface.key)
    {done : Bool} {next : Configurator}
    (added : configurator.addPcap name promiscuous opens = (done, next)) :
    Prepared start next ∧ next.interfaces.map Interface.key =
      configurator.interfaces.map Interface.key ++ (if done then [(name, promiscuous)] else []) := by
  have interfaces := congrArg Loop.interfaces prepared.loop
  dsimp only at interfaces
  rw [Configurator.addPcap, interfaces, find_marked] at added
  cases found : start.interfaces.find? fun old => old.name = name ∧ old.promiscuous = promiscuous with
  | some old =>
    rw [found, map_some] at added
    cases added
    have member := mem_of_find?_eq_some found
    have matching := List.find?_some found
    simp only [decide_eq_true_eq] at matching
    have key : old.key = (name, promiscuous) := Prod.ext matching.1 matching.2
    refine ⟨prepared.extend ?_ ?_ rfl (Nat.lt_succ_self _) ?_ (fun _ => ⟨old, member, rfl⟩) ?_, ?_⟩
    · rw [Loop.unmark, prepared.loop, List.map_map]
      exact congrArg (fun interfaces => Loop.mk interfaces _ _ _ _ _ _ _ _)
        (map_congr_left fun other inside =>
          @marked_unmark start sound old other _ _ member inside rfl)
    · rw [filter_append, filter_cons_of_neg Bool.false_ne_true, filter_nil, append_nil]
      exact prepared.owns.transfer rfl rfl rfl (Nat.le_succ _)
    · exact key ▸ new
    · intro opened
      exact absurd opened Bool.false_ne_true
    · rw [map_append, if_pos rfl, ← key]
      rfl
  | none =>
    rw [found, map_none] at added
    dsimp only at added
    split_ifs at added with both
    · cases added
      have absent : ∀ other ∈ start.interfaces, other.key ≠ (name, promiscuous) := by
        intro other inside same
        have rejected := List.find?_eq_none.mp found other inside
        simp only [decide_eq_true_eq] at rejected
        exact rejected ⟨congrArg Prod.fst same, congrArg Prod.snd same⟩
      refine ⟨prepared.extend ?_ ?_ rfl (Nat.lt_add_of_pos_right (by decide)) new ?_ ?_, ?_⟩
      · conv_lhs => rw [prepared.loop]
        exact congrArg (fun interfaces => Loop.mk interfaces _ _ _ _ _ _ _ _)
          (map_congr_left fun other inside => marked_new (absent other inside))
      · rw [filter_append, flatMap_append]
        have opened := prepared.owns.open_.perm (List.Perm.refl _) perm_append_comm
        exact opened.transfer rfl rfl rfl le_rfl
      · intro copied
        exact absurd copied Bool.true_eq_false_eq_False
      · intro _
        refine ⟨fun there => ?_, rfl, rfl, ?_⟩
        · obtain ⟨other, inside, same⟩ := List.mem_map.mp there
          exact absent other inside same
        · intro capture own
          rcases mem_cons.mp own with rfl | own
          · exact prepared.grows
          · rw [mem_singleton.mp own]
            exact prepared.grows.trans (Nat.le_succ _)
      · rw [map_append, if_pos rfl]
        rfl
    · cases added
      exact ⟨prepared, (append_nil _).symm⟩

end Preparing

section Loading

variable {start : Loop} {configurator : Configurator}

/-- This is the structure that a copy was made of. -/
def Loop.origin (loop : Loop) (interface : Interface) : Nat :=
  ((loop.interfaces.find? fun old => old.key = interface.key).map Interface.address).getD 0

section

variable (sound : Sound start)
include sound

/-- The marks have no part in what is held. -/
theorem Sound.marked {fresh : Nat} (grows : start.fresh ≤ fresh) (interfaces : List Interface) :
    Sound { start with interfaces := start.interfaces.map (Interface.marked interfaces), fresh } where
  owns := by
    rw [List.map_map]
    exact sound.owns.transfer rfl rfl rfl grows
  keys := by
    rw [List.map_map]
    exact sound.keys
  ready := by
    intro interface member
    obtain ⟨old, inside, rfl⟩ := List.mem_map.mp member
    exact sound.ready old inside

theorem Sound.same_key {old other : Interface} (member : old ∈ start.interfaces)
    (inside : other ∈ start.interfaces) (same : other.key = old.key) : other = old :=
  inj_on_of_nodup_map sound.keys inside member same

theorem Sound.origin_copy {old interface : Interface} (member : old ∈ start.interfaces)
    (same : interface.key = old.key) :
    start.origin interface = old.address := by
  rw [Loop.origin]
  cases found : start.interfaces.find? fun old => old.key = interface.key with
  | none =>
    have rejected := List.find?_eq_none.mp found old member
    simp only [decide_eq_true_eq] at rejected
    exact absurd same.symm rejected
  | some other =>
    have matching := List.find?_some found
    simp only [decide_eq_true_eq] at matching
    rw [sound.same_key member (mem_of_find?_eq_some found) (matching.trans same)]
    rfl

/-- The copy waits for what its old interface holds. -/
theorem Prepared.copied (prepared : Prepared start configurator) {interface : Interface}
    (member : interface ∈ configurator.interfaces) (copied : interface.mark = false) :
    ∃ old ∈ start.interfaces, old.key = interface.key ∧
      interface.heldBy (start.origin interface) = old.holding := by
  obtain ⟨old, inside, same⟩ := prepared.copies interface member copied
  have key : interface.key = old.key := by
    rw [same]
    rfl
  refine ⟨old, inside, key.symm, ?_⟩
  rw [sound.origin_copy inside key, same]
  rfl

/-- The interfaces that lost their marks are those whose copies wait. -/
theorem Prepared.unmarked (prepared : Prepared start configurator) :
    (((start.interfaces.map (Interface.marked configurator.interfaces)).filter fun interface =>
        !interface.mark).map Interface.holding).Perm
      (waiting start.origin configurator.interfaces) := by
  have holdings : (start.interfaces.map Interface.holding).Nodup := sound.owns.addresses.of_map _
  refine (perm_ext_iff_of_nodup ?_ ?_).mpr fun holding => ?_
  · refine holdings.sublist ?_
    have part := (filter_sublist (p := fun interface : Interface => !interface.mark)
      (l := start.interfaces.map (Interface.marked configurator.interfaces))).map Interface.holding
    rw [List.map_map] at part
    exact part
  · refine Nodup.map_on ?_ ((prepared.keys.of_map _).filter _)
    intro first firstIn second secondIn same
    rw [mem_filter, Bool.not_eq_true'] at firstIn secondIn
    obtain ⟨firstOld, firstMember, firstKey, firstHeld⟩ := prepared.copied sound firstIn.1 firstIn.2
    obtain ⟨secondOld, secondMember, secondKey, secondHeld⟩ :=
      prepared.copied sound secondIn.1 secondIn.2
    have one : firstOld = secondOld := inj_on_of_nodup_map holdings firstMember secondMember
      (firstHeld.symm.trans (same.trans secondHeld))
    exact inj_on_of_nodup_map prepared.keys firstIn.1 secondIn.1
      (firstKey.symm.trans ((congrArg Interface.key one).trans secondKey))
  · simp only [waiting, List.mem_map, mem_filter, Bool.not_eq_true']
    constructor
    · rintro ⟨marked, ⟨⟨old, member, rfl⟩, unmarked⟩, rfl⟩
      have there : old.key ∈ configurator.interfaces.map Interface.key := by
        simpa [Interface.marked] using unmarked
      obtain ⟨interface, inside, key⟩ := List.mem_map.mp there
      have copied : interface.mark = false := by
        by_contra opened
        rw [Bool.not_eq_false] at opened
        exact (prepared.news interface inside opened).1 (key ▸ List.mem_map_of_mem member)
      obtain ⟨other, known, same, held⟩ := prepared.copied sound inside copied
      refine ⟨interface, ⟨inside, copied⟩, ?_⟩
      rw [held, sound.same_key member known (same.trans key)]
      rfl
    · rintro ⟨interface, ⟨inside, copied⟩, rfl⟩
      obtain ⟨old, member, key, held⟩ := prepared.copied sound inside copied
      refine ⟨old.marked configurator.interfaces, ⟨⟨old, member, rfl⟩, ?_⟩, held.symm⟩
      have there : old.key ∈ configurator.interfaces.map Interface.key :=
        key ▸ List.mem_map_of_mem inside
      simpa [Interface.marked] using there

/-- The committed interfaces are the prepared ones with their watchdogs. -/
theorem Prepared.commit (prepared : Prepared start configurator) :
    Concludes (fun final => Sound final ∧
        final.interfaces.map Interface.key = configurator.interfaces.map Interface.key ∧
        List.Forall₂ (fun interface new => ∃ id, new = interface.watched id)
          configurator.interfaces final.interfaces)
      (· = .noId) (loopConfigCommit configurator) := by
  let marked := start.interfaces.map (Interface.marked configurator.interfaces)
  have interfaces : configurator.loop.interfaces = marked :=
    congrArg Loop.interfaces prepared.loop
  have split : (start.interfaces.map Interface.holding).Perm
      ((marked.filter Interface.mark).map Interface.holding ++
        waiting start.origin configurator.interfaces) := by
    have parts := (filter_append_perm Interface.mark marked).symm.map Interface.holding
    rw [map_append, show marked.map Interface.holding = start.interfaces.map Interface.holding from
      List.map_map ..] at parts
    exact parts.trans ((prepared.unmarked sound).append_left _)
  obtain ⟨next, destroyed, owned, same⟩ := destroyAll_live
    (prepared.owns.perm split (List.Perm.refl _)) (fun interface member => by
      obtain ⟨old, inside, rfl⟩ := List.mem_map.mp (mem_filter.mp member).1
      exact sound.ready old inside)
  have apart : (configurator.interfaces.map Interface.address ++
      (waiting start.origin configurator.interfaces ++ []).map Holding.address).Nodup := by
    rw [append_nil]
    refine prepared.addresses.append owned.addresses ?_
    intro address new old
    obtain ⟨interface, member, rfl⟩ := List.mem_map.mp new
    obtain ⟨holding, waits, same⟩ := List.mem_map.mp old
    have known : holding ∈ start.interfaces.map Interface.holding :=
      split.mem_iff.mpr (mem_append_right _ waits)
    exact absurd (sound.owns.room holding known)
      (Nat.not_lt.mpr (same ▸ (prepared.apart interface member).1))
  have registered := @registerAll next [] [] start.origin configurator.interfaces []
    (by
      rw [append_nil, append_nil]
      exact owned)
    apart (fun interface member => by
      rw [same]
      exact (prepared.apart interface member).2)
  rw [loopConfigCommit, interfaces, destroyed, ok_bind]
  apply registered.bind
  rintro ⟨final, committed⟩ ⟨_, rfl, related, last, _⟩
  rw [append_nil] at last
  have keys : committed.map Interface.key = configurator.interfaces.map Interface.key := by
    refine forall₂_eq_eq_eq ▸ ?_
    refine forall₂_map_left_iff.mpr (forall₂_map_right_iff.mpr (related.flip.imp ?_))
    rintro new interface ⟨id, rfl⟩
    rfl
  refine ⟨⟨last.transfer rfl rfl rfl le_rfl, ?_, ?_⟩, keys, related⟩
  · exact keys ▸ prepared.keys
  · intro new member
    obtain ⟨interface, _, id, rfl⟩ := forall₂_right related member
    exact ⟨rfl, rfl⟩

/-- The prepared interfaces are given up, and only the marks stay. -/
theorem Prepared.abort (prepared : Prepared start configurator) :
    loopConfigAbort configurator = .ok { start with
      interfaces := start.interfaces.map (Interface.marked configurator.interfaces)
      fresh := configurator.loop.fresh } := by
  have owns : Owns configurator.loop (start.interfaces.map Interface.holding)
      ((configurator.interfaces.filter Interface.mark).flatMap Interface.captures ++ []) := by
    rw [append_nil]
    exact prepared.owns
  obtain ⟨opened, destroyed, left⟩ := destroyAll_spare owns (fun interface member => by
    obtain ⟨inside, opened⟩ := mem_filter.mp member
    obtain ⟨_, registered, initialized, _⟩ := prepared.news interface inside opened
    exact ⟨registered, initialized⟩)
  have same : opened = start.opened :=
    Finset.ext fun capture =>
      (left.captured.opened capture).trans (sound.owns.captured.opened capture).symm
  rw [loopConfigAbort, destroyed, prepared.loop, same]

end

end Loading

section Sections

variable {start : Loop} {configurator : Configurator}

/-- This is the interface that a section asks for. -/
def Section.key : Section → Option (String × Bool)
  | .interface none _ _ => none
  | .interface (some name) promiscuous _ => (promiscConv promiscuous).map fun promiscuous =>
    (name, promiscuous)
  | .other _ => none

/-- An interface that is not captured yet must be opened in both directions. -/
def Section.accepted (loop : Loop) : Section → Bool
  | .interface none _ _ => false
  | .interface (some name) promiscuous opens =>
    match promiscConv promiscuous with
    | none => false
    | some promiscuous =>
      decide ((name, promiscuous) ∈ loop.interfaces.map Interface.key) ||
        (opens.incoming && opens.outgoing)
  | .other accepted => accepted

/-- Only a new interface can fail. -/
theorem Prepared.addPcap_done (prepared : Prepared start configurator) (name : String)
    (promiscuous : Bool) (opens : Opens) :
    (configurator.addPcap name promiscuous opens).1 =
      (decide ((name, promiscuous) ∈ start.interfaces.map Interface.key) ||
        (opens.incoming && opens.outgoing)) := by
  have interfaces := congrArg Loop.interfaces prepared.loop
  dsimp only at interfaces
  rw [Configurator.addPcap, interfaces, find_marked]
  cases found : start.interfaces.find? fun old => old.name = name ∧ old.promiscuous = promiscuous with
  | some old =>
    have matching := List.find?_some found
    simp only [decide_eq_true_eq] at matching
    have known : (name, promiscuous) ∈ start.interfaces.map Interface.key :=
      List.mem_map.mpr ⟨old, mem_of_find?_eq_some found, Prod.ext matching.1 matching.2⟩
    rw [decide_eq_true known]
    rfl
  | none =>
    have absent : (name, promiscuous) ∉ start.interfaces.map Interface.key := by
      intro there
      obtain ⟨other, inside, same⟩ := List.mem_map.mp there
      have rejected := List.find?_eq_none.mp found other inside
      simp only [decide_eq_true_eq] at rejected
      exact rejected ⟨congrArg Prod.fst same, congrArg Prod.snd same⟩
    rw [decide_eq_false absent, Bool.false_or, map_none]
    dsimp only
    split_ifs with both
    · exact both.symm
    · exact (Bool.eq_false_iff.mpr both).symm

theorem Prepared.loadSection (sound : Sound start) (prepared : Prepared start configurator)
    {item : Section} (new : ∀ key ∈ item.key, key ∉ configurator.interfaces.map Interface.key)
    {done : Bool} {next : Configurator} (loaded : configurator.loadSection item = (done, next)) :
    Prepared start next ∧ done = item.accepted start ∧
      (done = true → next.interfaces.map Interface.key =
        configurator.interfaces.map Interface.key ++ item.key.toList) := by
  cases item with
  | other accepted =>
    cases loaded
    exact ⟨prepared, rfl, fun _ => (append_nil _).symm⟩
  | interface ifname promiscuous opens =>
    cases ifname with
    | none =>
      cases loaded
      exact ⟨prepared, rfl, fun failed => absurd failed Bool.false_ne_true⟩
    | some name =>
      rw [Configurator.loadSection] at loaded
      rw [Section.key] at new ⊢
      rw [Section.accepted]
      cases converted : promiscConv promiscuous with
      | none =>
        rw [converted] at loaded
        cases loaded
        exact ⟨prepared, rfl, fun failed => absurd failed Bool.false_ne_true⟩
      | some promiscuous =>
        rw [converted] at loaded new
        obtain ⟨kept, keys⟩ := prepared.addPcap sound (new _ rfl) loaded
        have result := prepared.addPcap_done name promiscuous opens
        rw [show configurator.addPcap name promiscuous opens = (done, next) from loaded] at result
        refine ⟨kept, result, fun succeeded => ?_⟩
        rw [keys, if_pos succeeded]
        rfl

/-- All sections are loaded, or the first one that fails ends the loading. -/
theorem Prepared.loadPackage (sound : Sound start) {sections : List Section}
    (prepared : Prepared start configurator)
    (distinct : (configurator.interfaces.map Interface.key ++ sections.filterMap Section.key).Nodup)
    {done : Bool} {next : Configurator} (loaded : configurator.loadPackage sections = (done, next)) :
    Prepared start next ∧ done = sections.all (Section.accepted start) ∧
      (done = true → next.interfaces.map Interface.key =
        configurator.interfaces.map Interface.key ++ sections.filterMap Section.key) := by
  induction sections generalizing configurator with
  | nil =>
    cases loaded
    exact ⟨prepared, rfl, fun _ => (append_nil _).symm⟩
  | cons item items ih =>
    have keys : (item :: items).filterMap Section.key =
        item.key.toList ++ items.filterMap Section.key := by
      rw [filterMap_cons]
      cases item.key <;> rfl
    rw [keys, ← append_assoc] at distinct
    have new : ∀ key ∈ item.key, key ∉ configurator.interfaces.map Interface.key :=
      fun key own there => disjoint_of_nodup_append distinct.of_append_left there
        (mem_toList.mpr own)
    rw [Configurator.loadPackage] at loaded
    cases read : configurator.loadSection item with
    | mk first after =>
      obtain ⟨kept, result, extended⟩ := prepared.loadSection sound new read
      rw [all_cons, ← result]
      rw [read] at loaded
      cases first with
      | true =>
        rw [← extended rfl] at distinct
        obtain ⟨last, accepted, all⟩ := ih kept distinct loaded
        refine ⟨last, accepted, fun succeeded => ?_⟩
        rw [all succeeded, extended rfl, keys, append_assoc]
      | false =>
        cases loaded
        exact ⟨kept, rfl, fun failed => absurd failed Bool.false_ne_true⟩

/-- An interface keeps what it had before, or its captures were not open before. -/
def Interface.Continues (loop : Loop) (interface : Interface) : Prop :=
  (∃ old ∈ loop.interfaces, old.key = interface.key ∧ old.captures = interface.captures ∧
    old.watchdogReceived = interface.watchdogReceived ∧
    old.watchdogMissed = interface.watchdogMissed) ∨
  (interface.key ∉ loop.interfaces.map Interface.key ∧
    ∀ capture ∈ interface.captures, capture ∉ loop.opened)

theorem Prepared.continues (sound : Sound start) (prepared : Prepared start configurator)
    {interface : Interface} (member : interface ∈ configurator.interfaces) (id : Nat) :
    (interface.watched id).Continues start := by
  cases opened : interface.mark with
  | false =>
    obtain ⟨old, inside, same⟩ := prepared.copies interface member opened
    refine Or.inl ⟨old, inside, ?_⟩
    rw [same]
    exact ⟨rfl, rfl, rfl, rfl⟩
  | true =>
    obtain ⟨new, _, _, room⟩ := prepared.news interface member opened
    refine Or.inr ⟨new, fun capture own there => ?_⟩
    exact absurd (sound.owns.fresh capture there) (Nat.not_lt.mpr (room capture own))

/-- The configured interfaces are captured after a success, and a failure changes only marks. -/
structure Loaded (loop : Loop) (sections : List Section) (done : Bool) (final : Loop) : Prop where
  sound : Sound final
  accepted : done = sections.all (Section.accepted loop)
  success : done = true → final.interfaces.map Interface.key = sections.filterMap Section.key ∧
    ∀ interface ∈ final.interfaces, interface.Continues loop
  failure : done = false → ∃ (marks : Interface → Bool) (fresh : Nat), final = { loop with
    interfaces := loop.interfaces.map fun old => { old with mark := marks old }
    fresh }

theorem loadConfig_loaded {sections : List Section} (sound : Sound start)
    (distinct : (sections.filterMap Section.key).Nodup) :
    Concludes (fun pair => Loaded start sections pair.1 pair.2) (· = .noId)
      (loadConfig sections start) := by
  rw [loadConfig]
  cases loaded : (loopConfigStart start).loadPackage sections with
  | mk done configurator =>
    obtain ⟨prepared, accepted, keys⟩ := (Prepared.empty sound).loadPackage sound distinct loaded
    cases done with
    | true =>
      apply (prepared.commit sound).bind
      rintro final ⟨kept, same, related⟩
      refine ⟨kept, accepted, fun _ => ⟨same.trans (keys rfl), ?_⟩,
        fun failed => absurd failed.symm Bool.false_ne_true⟩
      intro new member
      obtain ⟨interface, inside, id, rfl⟩ := forall₂_right related member
      exact prepared.continues sound inside id
    | false =>
      dsimp only
      rw [prepared.abort sound]
      refine ⟨sound.marked prepared.grows _, accepted,
        fun succeeded => absurd succeeded Bool.false_ne_true, fun _ => ⟨_, _, rfl⟩⟩

end Sections

end Ucollect.Interfaces
