import Ucollect.Proof.Loading.Settlement

/-
A new configuration keeps the balance, whether it is accepted or not.
-/

namespace Ucollect.Loading
open Library List

variable {configurator next : Configurator} {surroundings : Surroundings} {passed : Bool}
  {libname : String} {callbacks : Callbacks} {loop after : Loop} {names used : List String}
  {sections : List Section}

/-- The plugins of a configuration. -/
def sectionNames (sections : List Section) : List String :=
  sections.filterMap fun
    | .plugin libname _ _ => some libname
    | .other _ => none

/-- There is no library without a name. -/
def Section.Real : Section → Prop
  | .plugin libname _ surroundings => libname = "" → surroundings.plugin = none
  | .other _ => True

/-- A transaction is going on, and these plugins have been added. -/
structure Ready (names used : List String) (configurator : Configurator) : Prop where
  balanced : Balanced configurator.loop configurator.plugins
  mirrored : Mirrored configurator.loop configurator.plugins
  named : Named configurator.loop configurator.plugins used
  placed : Placed configurator.loop configurator.plugins
  libnames : configurator.loop.plugins.map Holder.libname = names
  filled : ∀ name ∈ used, name ≠ ""

theorem libnames_added
    (added : configurator.loopAddPlugin surroundings libname = .ok (passed, next)) :
    next.loop.plugins.map Holder.libname = configurator.loop.plugins.map Holder.libname := by
  rw [Configurator.loopAddPlugin] at added
  split at added
  case h_1 =>
    obtain ⟨-, -, -, -, -, alike⟩ := keepPlugin_cases added
    rw [map_alike (fun _ _ => rfl) alike, map_takeOver fun _ _ => rfl]
  case h_2 =>
    cases found : surroundings.plugin with
    | none =>
      rw [Configurator.loadPlugin, found] at added
      cases added
      rfl
    | some load =>
      obtain ⟨-, -, alike, -⟩ := loadPlugin_cases found added
      exact map_alike (fun _ _ => rfl) alike

theorem setPluglibs_loop (pluglibs : List String) (configurator : Configurator) :
    (pluglibs.foldl Configurator.setPluglib configurator).loop = configurator.loop ∧
      (pluglibs.foldl Configurator.setPluglib configurator).plugins = configurator.plugins := by
  induction pluglibs generalizing configurator with
  | nil => exact ⟨rfl, rfl⟩
  | cons pluglib pluglibs ih => exact ih (configurator.setPluglib pluglib)

theorem setOptions_loop (options : List (String × String)) (configurator : Configurator) :
    (options.foldl (fun configurator (name, value) => configurator.setPluginOpt name value)
        configurator).loop = configurator.loop ∧
      (options.foldl (fun configurator (name, value) => configurator.setPluginOpt name value)
        configurator).plugins = configurator.plugins := by
  induction options generalizing configurator with
  | nil => exact ⟨rfl, rfl⟩
  | cons option options ih => exact ih (configurator.setPluginOpt option.1 option.2)

/-- The options do not touch the loop. -/
theorem loadSection_adds {options : List (String × String)}
    (loaded : configurator.loadSection (.plugin libname options surroundings) =
      .ok (passed, next)) :
    ∃ (given : Configurator), given.loop = configurator.loop ∧
      given.plugins = configurator.plugins ∧
      given.loopAddPlugin surroundings libname = .ok (passed, next) := by
  rw [Configurator.loadSection] at loaded
  obtain ⟨optionsLoop, optionsPlugins⟩ := setOptions_loop options
    (((options.filter fun option => option.1 = "pluglib").map Prod.snd).foldl
      Configurator.setPluglib configurator)
  obtain ⟨pluglibsLoop, pluglibsPlugins⟩ := setPluglibs_loop
    ((options.filter fun option => option.1 = "pluglib").map Prod.snd) configurator
  exact ⟨_, optionsLoop.trans pluglibsLoop, optionsPlugins.trans pluglibsPlugins, loaded⟩

theorem Ready.given (ready : Ready names used configurator) (given : Configurator)
    (loops : given.loop = configurator.loop) (plugins : given.plugins = configurator.plugins) :
    Ready names used given := by
  constructor
  case balanced =>
    rw [loops, plugins]
    exact ready.balanced
  case mirrored =>
    rw [loops, plugins]
    exact ready.mirrored
  case named =>
    rw [loops, plugins]
    exact ready.named
  case placed =>
    rw [loops, plugins]
    exact ready.placed
  case libnames =>
    rw [loops]
    exact ready.libnames
  case filled => exact ready.filled

/-- One more section has been read. -/
theorem Ready.added (ready : Ready names used configurator)
    (pure : ∀ hash, ¬ configurator.loop.libraries.Garbage hash) (unused : libname ∉ used)
    (filled : libname ≠ "")
    (added : configurator.loopAddPlugin surroundings libname = .ok (passed, next)) :
    Ready names (libname :: used) next ∧
      (passed = true → ∀ hash, ¬ next.loop.libraries.Garbage hash) := by
  obtain ⟨balanced, mirrored, litters⟩ := ready.balanced.added ready.named unused filled
    (fun _ _ _ => pure _) added
  refine ⟨⟨balanced, mirrored ready.mirrored,
    ready.named.added ready.placed unused filled added, ready.placed.added added, ?_, ?_⟩, ?_⟩
  · rw [libnames_added added]
    exact ready.libnames
  · intro name member
    rcases mem_cons.mp member with rfl | before
    · exact filled
    · exact ready.filled name before
  · intro passes hash left
    rcases litters hash left with old | ⟨failed, -⟩
    · exact pure hash old
    · rw [passes] at failed
      cases failed

/-- No plugin is added under an empty name. -/
theorem added_empty (filled : ∀ plugin ∈ configurator.loop.plugins, plugin.libname ≠ "")
    (missing : surroundings.plugin = none)
    (added : configurator.loopAddPlugin surroundings "" = .ok (passed, next)) :
    passed = false ∧ next = configurator := by
  have absent : configurator.loop.plugins.find? (fun old => old.libname = "") = none := by
    rw [List.find?_eq_none]
    intro old member
    rw [decide_eq_true_eq]
    exact filled old member
  rw [Configurator.loopAddPlugin, absent] at added
  dsimp only at added
  rw [Configurator.loadPlugin, missing] at added
  cases added
  exact ⟨rfl, rfl⟩

/-- The sections are read in order. -/
theorem Ready.loaded (ready : Ready names used configurator)
    (pure : ∀ hash, ¬ configurator.loop.libraries.Garbage hash)
    (distinct : (sectionNames sections).Nodup)
    (unused : ∀ name ∈ sectionNames sections, name ∉ used)
    (real : ∀ item ∈ sections, item.Real) (filled : ∀ name ∈ names, name ≠ "")
    (loaded : configurator.loadPackage sections = .ok (passed, next)) :
    ∃ more, Ready names more next := by
  induction sections generalizing configurator used with
  | nil =>
    cases loaded
    exact ⟨used, ready⟩
  | cons item sections ih =>
    rw [Configurator.loadPackage] at loaded
    obtain ⟨⟨accepted, middle⟩, first, rest⟩ := bind_returns loaded
    have realRest : ∀ item ∈ sections, item.Real :=
      fun other member => real other (mem_cons_of_mem _ member)
    cases item with
    | other agreed =>
      cases first
      cases accepted with
      | true => exact ih ready pure distinct unused realRest rest
      | false =>
        cases rest
        exact ⟨used, ready⟩
    | plugin libname options surroundings =>
      obtain ⟨given, loops, plugins, added⟩ := loadSection_adds first
      have start := ready.given given loops plugins
      have clean : ∀ hash, ¬ given.loop.libraries.Garbage hash := loops ▸ pure
      change (libname :: sectionNames sections).Nodup at distinct
      rw [nodup_cons] at distinct
      by_cases empty : libname = ""
      case pos =>
        rw [empty] at added
        have standing : ∀ plugin ∈ given.loop.plugins, plugin.libname ≠ "" := by
          intro plugin member
          apply filled
          rw [← start.libnames]
          exact List.mem_map_of_mem member
        obtain ⟨rfl, rfl⟩ :=
          added_empty standing (real _ mem_cons_self empty) added
        cases rest
        exact ⟨used, start⟩
      case neg =>
        have new : libname ∉ used := unused libname mem_cons_self
        obtain ⟨readied, cleaned⟩ := start.added clean new empty added
        cases accepted with
        | false =>
          cases rest
          exact ⟨libname :: used, readied⟩
        | true =>
          apply ih readied (cleaned rfl) distinct.2 _ realRest rest
          intro name member known
          rcases mem_cons.mp known with rfl | before
          · exact distinct.1 member
          · exact unused name (mem_cons_of_mem _ member) before

/-- At the start all the plugins are marked. -/
theorem filter_started (loop : Loop) :
    (loopConfigStart loop).loop.plugins.filter Holder.mark = (loopConfigStart loop).loop.plugins ∧
      (loopConfigStart loop).loop.plugins.filter (fun plugin => !plugin.mark) = [] := by
  have marks : ∀ plugin ∈ (loopConfigStart loop).loop.plugins, plugin.mark = true := by
    intro plugin member
    obtain ⟨old, -, rfl⟩ := List.mem_map.mp member
    rfl
  constructor
  · exact filter_eq_self.mpr marks
  · rw [filter_eq_nil_iff]
    intro plugin member
    rw [marks plugin member]
    exact Bool.false_ne_true

theorem map_started {B : Type} {read : Holder → B}
    (blind : ∀ plugin : Holder, read { plugin with mark := true } = read plugin) (loop : Loop) :
    (loopConfigStart loop).loop.plugins.map read = loop.plugins.map read := by
  show (loop.plugins.map _).map read = _
  rw [List.map_map]
  apply map_congr_left
  exact fun plugin _ => blind plugin

theorem references_started (lib : Nat) (loop : Loop) :
    references lib (loopConfigStart loop).loop.plugins = references lib loop.plugins := by
  exact references_congr (map_started (fun _ => rfl) loop) lib

theorem Loop.Counted.ready (counted : loop.Counted) :
    Ready (loop.plugins.map Holder.libname) [] (loopConfigStart loop) := by
  obtain ⟨marks, blanks⟩ := filter_started loop
  have addresses := @map_started Nat Holder.address (fun _ => rfl) loop
  constructor
  case balanced =>
    constructor
    case counts =>
      apply Libraries.Counts.congr counted.counts
      intro lib
      rw [marks, references_started]
      rfl
    case olds =>
      intro plugin member
      obtain ⟨old, known, rfl⟩ := List.mem_map.mp member
      have supports := counted.supports old known
      exact ⟨supports.pluglibs, supports.candidates, supports.links⟩
    case news => exact fun plugin member => absurd member not_mem_nil
    case placed => exact addresses ▸ counted.placed.olds
  case mirrored =>
    intro lib
    rw [blanks]
    rfl
  case named =>
    constructor
    case unmarked =>
      intro plugin member gone
      obtain ⟨old, known, rfl⟩ := List.mem_map.mp member
      cases gone
    case distinct => exact nodup_nil
    case listed => exact fun plugin member => absurd member not_mem_nil
    case idle =>
      intro plugin member
      obtain ⟨old, known, rfl⟩ := List.mem_map.mp member
      exact counted.idle old known
    case plain => exact fun plugin member => absurd member not_mem_nil
  case placed =>
    constructor
    case apart =>
      show ((loopConfigStart loop).loop.plugins ++ []).map Holder.address |>.Nodup
      rw [append_nil, addresses]
      exact counted.placed.olds
    case below =>
      intro plugin member
      change plugin ∈ (loopConfigStart loop).loop.plugins ++ [] at member
      rw [append_nil] at member
      obtain ⟨old, known, rfl⟩ := List.mem_map.mp member
      exact counted.placed.below old (mem_append_left _ known)
  case libnames => exact map_started (fun _ => rfl) loop
  case filled => exact fun name member => absurd member not_mem_nil

/-- Between the transactions there is no garbage. -/
theorem Loop.Counted.pure (counted : loop.Counted) (hash : Nat) :
    ¬ loop.libraries.Garbage hash := by
  rintro ⟨node, member, empty, -⟩
  have loaded := (counted.needed node member).1
  rw [empty] at loaded
  cases loaded

/-- A configuration is accepted or refused. -/
theorem loadConfig_counted (counted : loop.Counted) (distinct : (sectionNames sections).Nodup)
    (real : ∀ item ∈ sections, item.Real)
    (loaded : loadConfig callbacks sections loop = .ok after) : after.Counted := by
  have filled : ∀ name ∈ loop.plugins.map Holder.libname, name ≠ "" := by
    intro name member
    obtain ⟨plugin, known, rfl⟩ := List.mem_map.mp member
    exact counted.filled plugin known
  rw [loadConfig] at loaded
  obtain ⟨⟨passed, configurator⟩, sectioned, rest⟩ := bind_returns loaded
  obtain ⟨used, ready⟩ := counted.ready.loaded counted.pure distinct
    (fun _ _ => not_mem_nil) real filled sectioned
  cases passed with
  | true => exact commit_counted ready.balanced ready.named ready.placed ready.filled rest
  | false =>
    cases rest
    apply abort_counted ready.balanced ready.mirrored ready.named ready.placed
    · rw [ready.libnames]
      exact counted.distinct
    · intro plugin member
      apply filled
      rw [← ready.libnames]
      exact List.mem_map_of_mem member

/-- All the plugins are removed. -/
theorem wipe_counted (counted : loop.Counted)
    (wiped : loopConfigCommit callbacks (loopConfigStart loop) = .ok after) : after.Counted :=
  commit_counted counted.ready.balanced counted.ready.named counted.ready.placed
    counted.ready.filled wiped

end Ucollect.Loading
