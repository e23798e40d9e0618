import Ucollect.Proof.Loading.Reloading

/-
In a whole run the counters of the libraries are the numbers of the entries that refer to them.
-/

namespace Ucollect.Loading
open Library List

variable {loop after : Loop} {event : LoopEvent} {events : List LoopEvent}

/-- The counters are right, and the loaded libraries are those that the plugins refer to. -/
structure Loop.Accounted (loop : Loop) : Prop where
  counted : ∀ node ∈ loop.libraries.pluglibs, node.refCount = references node.id loop.plugins
  distinct : (loop.libraries.pluglibs.map Pluglib.id).Nodup
  above : loop.libraries.wrapped = false
  needed : ∀ node ∈ loop.libraries.pluglibs, node.info.isSome ∧
    ∃ plugin ∈ loop.plugins, ∃ entry ∈ plugin.pluglibs, entry.lib = node.id
  loaded : ∀ plugin ∈ loop.plugins, ∀ entry ∈ plugin.pluglibs,
    entry.ready = true ∧ loop.libraries.Holds entry.lib
  linked : ∀ plugin ∈ loop.plugins, ∀ lib ∈ plugin.links, loop.libraries.Holds lib

/-- The names of a configuration are distinct. The plugins behind one that crashes do not load a
library that could not be loaded for that one. -/
def LoopEvent.Fits (loop : Loop) : LoopEvent → Prop
  | .reconfigure _ _ sections => (sectionNames sections).Nodup ∧ ∀ item ∈ sections, item.Real
  | .recovery position failure _ surroundings =>
    ∀ crashed, loop.plugins[position]? = some crashed →
      Reloadable failure crashed (loop.plugins.drop (position + 1)) position surroundings
  | _ => True

/-- Every event fits the loop that it happens to. -/
def Fitting : Loop → List LoopEvent → Prop
  | _, [] => True
  | loop, event :: events =>
    event.Fits loop ∧ ∀ next, loop.step event = .ok next → Fitting next events

theorem Loop.Counted.accounted (counted : loop.Counted) : loop.Accounted := by
  constructor
  case counted => exact counted.counts.counted
  case distinct => exact counted.counts.distinct
  case above => exact counted.counts.sound
  case needed =>
    intro node member
    obtain ⟨loaded, positive⟩ := counted.needed node member
    obtain ⟨entry, listed, same⟩ := countP_pos_iff.mp positive
    obtain ⟨plugin, known, inside⟩ := mem_flatMap.mp listed
    exact ⟨loaded, plugin, known, entry, inside, of_decide_eq_true same⟩
  case loaded => exact fun plugin member => (counted.supports plugin member).pluglibs
  case linked =>
    intro plugin member lib target
    have supports := counted.supports plugin member
    obtain ⟨entry, listed, rfl⟩ := supports.links lib target
    exact (supports.pluglibs entry listed).2

/-- The descriptors do not matter to the libraries. -/
theorem Loop.Counted.alike (counted : loop.Counted)
    (alike : List.Forall₂ Holder.Alike loop.plugins after.plugins)
    (grows : loop.libraries.Grows after.libraries) : after.Counted := by
  have extended := extends_grow grows.pluglibs grows.fresh
  constructor
  case counts =>
    apply (counted.counts.grow grows.pluglibs grows.wrapped grows.fresh).congr
    exact fun lib => (references_same alike lib).symm
  case needed =>
    intro node member
    rw [references_same alike]
    exact counted.needed node (grows.pluglibs ▸ member)
  case supports =>
    exact supports_alike alike fun plugin member =>
      (counted.supports plugin member).keeps extended.holds
  case idle =>
    intro plugin member
    obtain ⟨old, known, fds, rfl⟩ := forall₂_right alike member
    exact counted.idle old known
  case placed =>
    constructor
    case apart =>
      rw [append_nil, map_alike (fun _ _ => rfl) alike]
      exact counted.placed.olds
    case below =>
      rw [append_nil]
      intro plugin member
      obtain ⟨old, known, fds, rfl⟩ := forall₂_right alike member
      exact (counted.placed.below old (mem_append_left _ known)).trans_le grows.fresh
  case distinct =>
    rw [map_alike (fun _ _ => rfl) alike]
    exact counted.distinct
  case filled =>
    intro plugin member
    obtain ⟨old, known, fds, rfl⟩ := forall₂_right alike member
    exact counted.filled old known

/-- Only the plugin at the address changes. -/
theorem modifyPlugin_alike {change : Holder → Holder} {address : Nat}
    (changes : ∀ plugin ∈ loop.plugins, plugin.address = address →
      plugin.Alike (change plugin)) :
    List.Forall₂ Holder.Alike loop.plugins (loop.modifyPlugin address change).plugins := by
  rw [Loop.modifyPlugin, forall₂_map_right_iff]
  apply forall₂_same.mpr
  intro plugin member
  split
  case isTrue here => exact changes plugin member here
  case isFalse => exact alike_refl plugin

theorem Loop.Counted.callback (counted : loop.Counted) {plugin : Holder}
    (member : plugin ∈ loop.plugins) (registrations : List Registration) :
    (loop.runCallback plugin registrations).Counted := by
  obtain ⟨plugins, same⟩ := registerAll_plugins loop plugin registrations
  have grows := registerAll_grows loop plugin registrations
  have alike : List.Forall₂ Holder.Alike loop.plugins
      (loop.runCallback plugin registrations).plugins := by
    rw [← plugins]
    apply modifyPlugin_alike
    intro other known here
    rw [plugins] at known
    have equal := inj_on_of_nodup_map counted.placed.olds known member here
    exact equal ▸ same
  exact counted.alike alike grows

theorem Loop.Counted.unregister (counted : loop.Counted) (plugin : Holder) (node : Nat) :
    (loop.unregisterFd plugin node).Counted := by
  rw [Loop.unregisterFd]
  split
  case isTrue =>
    have alike := @modifyPlugin_alike loop (fun plugin =>
      { plugin with fds := plugin.fds.filter (· ≠ node) }) plugin.address
      fun other _ _ => alike_fds other _
    exact counted.alike alike (grows_refl _)
  case isFalse => exact counted

/-- Each event ends in balance. -/
theorem Loop.Counted.step (counted : loop.Counted) (fits : event.Fits loop)
    (stepped : loop.step event = .ok after) : after.Counted := by
  cases event with
  | callback position registrations =>
    rw [Loop.step] at stepped
    split at stepped
    case h_1 =>
      cases stepped
      exact counted
    case h_2 plugin there =>
      cases stepped
      exact counted.callback (mem_of_getElem? there) registrations
  | timeoutGone position =>
    cases stepped
    exact counted.alike (alike_self _) (grows_refl _)
  | unregister position node =>
    rw [Loop.step] at stepped
    split at stepped
    case h_1 =>
      cases stepped
      exact counted
    case h_2 plugin there =>
      cases stepped
      exact counted.unregister plugin node
  | reconfigure full callbacks sections =>
    cases full with
    | none => exact loadConfig_counted counted fits.1 fits.2 stepped
    | some wipe =>
      obtain ⟨wiped, removed, loaded⟩ := bind_returns stepped
      exact loadConfig_counted (wipe_counted counted removed) fits.1 fits.2 loaded
  | recovery position failure callbacks surroundings =>
    rw [Loop.step] at stepped
    split at stepped
    case h_1 =>
      cases stepped
      exact counted
    case h_2 crashed there =>
      have inside := (List.getElem?_eq_some_iff.mp there).1
      have length : (loop.plugins.take position).length = position :=
        length_take_of_le inside.le
      have place : loop.plugins = loop.plugins.take position ++
          crashed :: loop.plugins.drop (position + 1) := by
        obtain ⟨_, rfl⟩ := List.getElem?_eq_some_iff.mp there
        rw [getElem_cons_drop, take_append_drop]
      apply recover_counted counted place _ stepped
      rw [length]
      exact fits crashed there

theorem empty_counted : Loop.empty.Counted := by
  constructor
  case counts =>
    constructor
    case counted => exact fun node member => absurd member not_mem_nil
    case distinct => exact nodup_nil
    case below => exact fun node member => absurd member not_mem_nil
    case unknown => exact fun lib _ => rfl
    case sound => rfl
  case needed => exact fun node member => absurd member not_mem_nil
  case supports => exact fun plugin member => absurd member not_mem_nil
  case idle => exact fun plugin member => absurd member not_mem_nil
  case placed => exact ⟨nodup_nil, fun plugin member => absurd member not_mem_nil⟩
  case distinct => exact nodup_nil
  case filled => exact fun plugin member => absurd member not_mem_nil

theorem Loop.Counted.run (counted : loop.Counted) (fitting : Fitting loop events)
    (ran : loop.run events = .ok after) : after.Counted := by
  induction events generalizing loop with
  | nil =>
    cases ran
    exact counted
  | cons event events ih =>
    obtain ⟨next, first, rest⟩ := bind_returns ran
    exact ih (counted.step fitting.1 first) (fitting.2 next first) rest

/-- In a run whose events fit, the libraries are accounted for at the end of each transaction. -/
theorem run_accounted (fitting : Fitting Loop.empty events)
    (ran : Loop.empty.run events = .ok after) : after.Accounted :=
  (empty_counted.run fitting ran).accounted

/-- The plugin is content, and its library depends on what is on the disk. -/
def linkedSurroundings (disk : String → PluglibLoad) : Surroundings :=
  ⟨some ⟨1, []⟩, disk, [], false, [], true⟩

def linkedSection (libname pluglib : String) (disk : String → PluglibLoad) : Section :=
  .plugin libname [("libname", libname), ("pluglib", pluglib)] (linkedSurroundings disk)

/-- Both names are the same library in its first version. -/
def firstDisk : String → PluglibLoad := fun _ => ⟨1, some ⟨"queue", 1, 1, []⟩⟩

/-- The library has changed, and one of its names can not be loaded. -/
def secondDisk : String → PluglibLoad
  | "broken.so" => ⟨2, none⟩
  | _ => ⟨2, some ⟨"queue", 2, 1, []⟩⟩

def linkedSections : List Section :=
  [linkedSection "flow.so" "broken.so" firstDisk, linkedSection "refused.so" "queue.so" firstDisk]

def crashing (disk : String → PluglibLoad) : List LoopEvent :=
  [.reconfigure none plainCallbacks linkedSections,
    .recovery 0 true plainCallbacks fun _ => linkedSurroundings disk]

theorem run_accounted_crash :
    ∃ after, Loop.empty.run (crashing firstDisk) = .ok after ∧ after.Accounted := by
  refine ⟨_, rfl, @run_accounted _ (crashing firstDisk) ?_ rfl⟩
  refine ⟨⟨by decide, ?_⟩, fun next _ => ⟨?_, fun _ _ => trivial⟩⟩
  · simp [linkedSections, linkedSection, Section.Real]
  · rintro crashed - hash ⟨-, -, name, first, -⟩
    cases List.find?_some first

/-- The plugin behind the crashed one gets the node of the library that was not loaded. -/
theorem accounted_not : (sectionNames linkedSections).Nodup ∧
    ∃ after, Loop.empty.run (crashing secondDisk) = .ok after ∧ ¬ after.Accounted := by
  refine ⟨by decide, _, rfl, ?_⟩
  intro accounted
  have ready := (accounted.loaded _ (mem_singleton.mpr rfl) _ (mem_singleton.mpr rfl)).1
  cases ready

end Ucollect.Loading
