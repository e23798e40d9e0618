import Ucollect.Proof.Loading.Balance

/-
The plugins of a configurator have their own addresses and names.
-/

namespace Ucollect.Loading
open Library List

variable {configurator next : Configurator} {surroundings : Surroundings} {passed : Bool}
  {libname : String} {used : List String} {old : Holder} {loop : Loop} {plugins : List Holder}

/-- All the holders are apart from each other. -/
structure Placed (loop : Loop) (plugins : List Holder) : Prop where
  apart : ((loop.plugins ++ plugins).map Holder.address).Nodup
  below : ∀ plugin ∈ loop.plugins ++ plugins, plugin.address < loop.libraries.fresh

/-- A plugin without its mark has been added under its name, or it has lost its name. No name has
been added twice. -/
structure Named (loop : Loop) (plugins : List Holder) (used : List String) : Prop where
  unmarked : ∀ plugin ∈ loop.plugins, plugin.mark = false →
    plugin.libname = "" ∨ plugin.libname ∈ used
  distinct : (plugins.map Holder.libname).Nodup
  listed : ∀ plugin ∈ plugins, plugin.libname ∈ used
  idle : ∀ plugin ∈ loop.plugins, plugin.candidatePluglibs = []
  plain : ∀ plugin ∈ plugins, plugin.mark = true → plugin.candidatePluglibs = []

/-- One more plugin is in the configurator, at a new address. -/
theorem Placed.append (placed : Placed configurator.loop configurator.plugins) {new : Holder}
    (olds : next.loop.plugins.map Holder.address = configurator.loop.plugins.map Holder.address)
    (appended : next.plugins = configurator.plugins ++ [new])
    (address : new.address = configurator.loop.libraries.fresh)
    (grown : configurator.loop.libraries.fresh < next.loop.libraries.fresh) :
    Placed next.loop next.plugins := by
  have all : (next.loop.plugins ++ next.plugins).map Holder.address =
      (configurator.loop.plugins ++ configurator.plugins).map Holder.address ++ [new.address] := by
    rw [appended, map_append, olds, map_append, map_append, append_assoc]
    rfl
  have known : ∀ address ∈ (configurator.loop.plugins ++ configurator.plugins).map Holder.address,
      address < configurator.loop.libraries.fresh := by
    intro address member
    obtain ⟨plugin, inside, rfl⟩ := List.mem_map.mp member
    exact placed.below plugin inside
  constructor
  case apart =>
    rw [all, ← concat_eq_append, nodup_concat]
    refine ⟨?_, placed.apart⟩
    intro member
    have small := known _ member
    omega
  case below =>
    intro plugin member
    have inside : plugin.address ∈ (next.loop.plugins ++ next.plugins).map Holder.address :=
      List.mem_map_of_mem member
    rw [all, mem_append, mem_singleton] at inside
    rcases inside with before | same
    · exact (known _ before).trans grown
    · omega

theorem Placed.stay (placed : Placed configurator.loop configurator.plugins)
    (olds : next.loop.plugins.map Holder.address = configurator.loop.plugins.map Holder.address)
    (kept : next.plugins = configurator.plugins)
    (grown : configurator.loop.libraries.fresh ≤ next.loop.libraries.fresh) :
    Placed next.loop next.plugins := by
  have all : (next.loop.plugins ++ next.plugins).map Holder.address =
      (configurator.loop.plugins ++ configurator.plugins).map Holder.address := by
    rw [kept, map_append, olds, map_append]
  constructor
  case apart => exact all ▸ placed.apart
  case below =>
    intro plugin member
    have inside : plugin.address ∈ (next.loop.plugins ++ next.plugins).map Holder.address :=
      List.mem_map_of_mem member
    rw [all] at inside
    obtain ⟨before, known, same⟩ := List.mem_map.mp inside
    have small := placed.below before known
    omega

theorem Placed.added (placed : Placed configurator.loop configurator.plugins)
    (added : configurator.loopAddPlugin surroundings libname = .ok (passed, next)) :
    Placed next.loop next.plugins := by
  rw [Configurator.loopAddPlugin] at added
  split at added
  case h_1 old _ =>
    obtain ⟨-, -, -, -, -, alike⟩ := keepPlugin_cases added
    obtain ⟨entries, fds, middle, names, installed, plugins, -, -, installs, grows⟩ :=
      keepPlugin_installs added
    have grown : configurator.loop.libraries.fresh + 1 ≤ middle.fresh := installAll_fresh installs
    refine placed.append ?_ plugins rfl (grown.trans grows.fresh)
    rw [map_alike (fun _ _ => rfl) alike, map_takeOver fun _ _ => rfl]
  case h_2 =>
    cases found : surroundings.plugin with
    | none =>
      rw [Configurator.loadPlugin, found] at added
      cases added
      exact placed
    | some load =>
      obtain ⟨entries, middle, names, installed, -, -, installs, alike, which⟩ :=
        loadPlugin_installs found added
      have grown : configurator.loop.libraries.fresh + 2 ≤ middle.fresh :=
        installAll_fresh installs
      rcases which with ⟨-, plugins, last, grows, same⟩ | ⟨targets, fds, plugins, -, grows⟩
      · refine placed.stay (map_alike (fun _ _ => rfl) alike) plugins ?_
        have fresh := grows.fresh
        rw [same, pluglibsUnlink_fresh]
        omega
      · refine placed.append (map_alike (fun _ _ => rfl) alike) plugins rfl ?_
        have fresh := grows.fresh
        omega

theorem Named.alike (named : Named loop plugins used) {later : Loop}
    (alike : List.Forall₂ Holder.Alike loop.plugins later.plugins) : Named later plugins used := by
  refine { named with unmarked := ?unmarked, idle := ?idle }
  case unmarked =>
    intro plugin member gone
    obtain ⟨before, known, fds, rfl⟩ := forall₂_right alike member
    exact named.unmarked before known gone
  case idle =>
    intro plugin member
    obtain ⟨before, known, fds, rfl⟩ := forall₂_right alike member
    exact named.idle before known

theorem Named.more (named : Named loop plugins used) {more : List String}
    (inside : ∀ name ∈ used, name ∈ more) : Named loop plugins more :=
  ⟨fun plugin member gone => (named.unmarked plugin member gone).imp_right (inside _), named.distinct,
    fun plugin member => inside _ (named.listed plugin member), named.idle, named.plain⟩

theorem Named.append (named : Named loop plugins used) {new : Holder} (unused : libname ∉ used)
    (name : new.libname = libname) (plain : new.mark = true → new.candidatePluglibs = []) :
    Named loop (plugins ++ [new]) (libname :: used) := by
  constructor
  case unmarked =>
    exact fun plugin member gone =>
      (named.unmarked plugin member gone).imp_right (mem_cons_of_mem _)
  case distinct =>
    rw [map_append, map_singleton, ← concat_eq_append, nodup_concat]
    refine ⟨?_, named.distinct⟩
    intro member
    obtain ⟨plugin, known, same⟩ := List.mem_map.mp member
    apply unused
    rw [← name, ← same]
    exact named.listed plugin known
  case listed =>
    intro plugin member
    rcases mem_append.mp member with before | last
    · exact mem_cons_of_mem _ (named.listed plugin before)
    · rw [mem_singleton.mp last, name]
      exact mem_cons_self
  case idle => exact named.idle
  case plain =>
    intro plugin member marked
    rcases mem_append.mp member with before | last
    · exact named.plain plugin before marked
    · rw [mem_singleton.mp last] at marked ⊢
      exact plain marked

/-- A name that was not used yet belongs to a marked plugin. -/
theorem Named.marked (named : Named loop plugins used) (unused : libname ∉ used) (filled : libname ≠ "")
    (found : loop.plugins.find? (fun old => old.libname = libname) = some old) :
    old ∈ loop.plugins ∧ old.mark = true ∧ old.libname = libname := by
  have member := mem_of_find?_eq_some found
  have same : old.libname = libname := by
    have holds := List.find?_some found
    exact of_decide_eq_true holds
  refine ⟨member, ?_, same⟩
  rw [← Bool.not_eq_false]
  intro gone
  rcases named.unmarked old member gone with empty | listed
  · exact filled (same.symm.trans empty)
  · exact unused (same ▸ listed)

theorem Placed.olds (placed : Placed loop plugins) : (loop.plugins.map Holder.address).Nodup := by
  have apart := placed.apart
  rw [map_append] at apart
  exact apart.of_append_left

theorem Placed.news (placed : Placed loop plugins) : (plugins.map Holder.address).Nodup := by
  have apart := placed.apart
  rw [map_append] at apart
  exact apart.of_append_right

theorem Named.added (named : Named configurator.loop configurator.plugins used)
    (placed : Placed configurator.loop configurator.plugins) (unused : libname ∉ used)
    (filled : libname ≠ "")
    (added : configurator.loopAddPlugin surroundings libname = .ok (passed, next)) :
    Named next.loop next.plugins (libname :: used) := by
  rw [Configurator.loopAddPlugin] at added
  split at added
  case h_1 old found =>
    obtain ⟨entries, fds, plugins, -, -, alike⟩ := keepPlugin_cases added
    obtain ⟨member, marked, same⟩ := named.marked unused filled found
    rw [plugins]
    have appended : Named configurator.loop (configurator.plugins ++
        [(configurator.copyHolder old).fitted entries fds]) (libname :: used) :=
      named.append unused same fun impossible => nomatch impossible
    have taken : Named (configurator.takeOver old).loop (configurator.plugins ++
        [(configurator.copyHolder old).fitted entries fds]) (libname :: used) := by
      refine { appended with unmarked := ?unmarked, idle := ?idle }
      case unmarked =>
        intro plugin known gone
        obtain ⟨before, there, rfl⟩ := List.mem_map.mp known
        split at gone
        case isTrue here =>
          rw [if_pos here]
          have equal := inj_on_of_nodup_map placed.olds there member here
          rw [equal]
          exact .inr (same ▸ mem_cons_self)
        case isFalse elsewhere =>
          rw [if_neg elsewhere]
          exact appended.unmarked before there gone
      case idle =>
        intro plugin known
        obtain ⟨before, there, rfl⟩ := List.mem_map.mp known
        split
        · exact named.idle before there
        · exact named.idle before there
    exact taken.alike alike
  case h_2 =>
    have wider : Named configurator.loop configurator.plugins (libname :: used) :=
      named.more fun name => mem_cons_of_mem _
    cases found : surroundings.plugin with
    | none =>
      rw [Configurator.loadPlugin, found] at added
      cases added
      exact wider
    | some load =>
      obtain ⟨-, -, alike, failed | ⟨entries, targets, fds, -, plugins⟩⟩ :=
        loadPlugin_cases found added
      · rw [failed.1]
        exact wider.alike alike
      · rw [plugins]
        have appended : Named configurator.loop (configurator.plugins ++
            [(configurator.newHolder load libname).linked entries targets fds])
            (libname :: used) := named.append unused rfl fun _ => rfl
        exact appended.alike alike

/-- A plugin may be added under a name that was not used yet. -/
theorem Balanced.added (balanced : Balanced configurator.loop configurator.plugins)
    (named : Named configurator.loop configurator.plugins used) (unused : libname ∉ used)
    (filled : libname ≠ "") (clean : Clean configurator surroundings.disk)
    (added : configurator.loopAddPlugin surroundings libname = .ok (passed, next)) :
    Balanced next.loop next.plugins ∧
      (Mirrored configurator.loop configurator.plugins → Mirrored next.loop next.plugins) ∧
      Litters configurator next surroundings.disk passed := by
  rw [Configurator.loopAddPlugin] at added
  split at added
  case h_1 old found =>
    obtain ⟨member, marked, -⟩ := named.marked unused filled found
    exact balanced.kept clean member marked added
  case h_2 =>
    obtain ⟨after, mirrored, litters, -⟩ := balanced.loaded clean added
    exact ⟨after, mirrored, litters⟩

end Ucollect.Loading
