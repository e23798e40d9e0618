import Ucollect.Construction.Loading.Transaction
import Ucollect.Library.Outcomes

/-
A plugin that is added takes the options and the libraries that were set before.
-/

namespace Ucollect.Loading
open Library List

variable {configurator next : Configurator} {surroundings : Surroundings} {passed : Bool}

/-- The holders are the same but for their descriptors. -/
def Holder.Alike (first second : Holder) : Prop := ∃ fds, second = { first with fds := fds }

theorem alike_refl (plugin : Holder) : plugin.Alike plugin := ⟨plugin.fds, rfl⟩

theorem alike_fds (plugin : Holder) (fds : List Nat) : plugin.Alike { plugin with fds := fds } :=
  ⟨fds, rfl⟩

theorem Holder.Alike.trans {first second third : Holder} (one : first.Alike second)
    (two : second.Alike third) : first.Alike third := by
  obtain ⟨_, rfl⟩ := one
  obtain ⟨fds, rfl⟩ := two
  exact ⟨fds, rfl⟩

theorem register_plugins (pair : Loop × Holder) (registration : Registration) :
    (Loop.register pair registration).1.plugins = pair.1.plugins ∧
      pair.2.Alike (Loop.register pair registration).2 := by
  cases registration with
  | timeout => exact ⟨rfl, alike_refl _⟩
  | freeTimeout => exact ⟨rfl, alike_refl _⟩
  | fd => exact ⟨rfl, alike_fds _ _⟩

/-- A callback does not change the plugins of the loop. -/
theorem registerAll_plugins (loop : Loop) (plugin : Holder) (registrations : List Registration) :
    (loop.registerAll plugin registrations).1.plugins = loop.plugins ∧
      plugin.Alike (loop.registerAll plugin registrations).2 := by
  rw [Loop.registerAll]
  suffices general : ∀ pair : Loop × Holder,
      (registrations.foldl Loop.register pair).1.plugins = pair.1.plugins ∧
        pair.2.Alike (registrations.foldl Loop.register pair).2 from general (loop, plugin)
  induction registrations with
  | nil => exact fun pair => ⟨rfl, alike_refl _⟩
  | cons registration registrations ih =>
    intro pair
    obtain ⟨plugins, alike⟩ := register_plugins pair registration
    obtain ⟨laterPlugins, laterAlike⟩ := ih (Loop.register pair registration)
    rw [foldl_cons, laterPlugins]
    exact ⟨plugins, alike.trans laterAlike⟩

/-- The rest of the memory does not matter to the libraries. No address is given out twice. -/
structure Libraries.Grows (libraries after : Libraries) : Prop where
  pluglibs : after.pluglibs = libraries.pluglibs
  wrapped : after.wrapped = libraries.wrapped
  fresh : libraries.fresh ≤ after.fresh

theorem grows_refl (libraries : Libraries) : libraries.Grows libraries := ⟨rfl, rfl, le_rfl⟩

/-- Growth composes. -/
theorem Libraries.Grows.trans {first second third : Libraries} (one : first.Grows second)
    (two : second.Grows third) : first.Grows third :=
  ⟨two.pluglibs.trans one.pluglibs, two.wrapped.trans one.wrapped, one.fresh.trans two.fresh⟩

theorem registerAll_grows (loop : Loop) (plugin : Holder) (registrations : List Registration) :
    loop.libraries.Grows (loop.registerAll plugin registrations).1.libraries := by
  rw [Loop.registerAll]
  suffices general : ∀ pair : Loop × Holder, pair.1.libraries.Grows
      (registrations.foldl Loop.register pair).1.libraries from general (loop, plugin)
  induction registrations with
  | nil => exact fun pair => grows_refl _
  | cons registration registrations ih =>
    intro pair
    refine Libraries.Grows.trans ?_ (ih (Loop.register pair registration))
    cases registration with
    | timeout => exact grows_refl _
    | freeTimeout => exact grows_refl _
    | fd => exact ⟨rfl, rfl, Nat.le_succ _⟩

variable {disk : String → PluglibLoad} {live : Bool} {libraries after : Libraries}

/-- Each entry of an installation has the name of its library. -/
theorem installAll_names {names : List String} {entries installed : List PluglibEntry}
    (ran : installAll disk live names entries libraries = .ok (true, installed, after)) :
    installed.map PluglibEntry.name = entries.map PluglibEntry.name ++ names := by
  induction names generalizing entries libraries with
  | nil =>
    cases ran
    rw [append_nil]
  | cons name names ih =>
    rw [installAll] at ran
    obtain ⟨⟨entry, middle⟩, installs, rest⟩ := bind_returns ran
    cases entry with
    | none => cases rest
    | some entry =>
      have named : entry.name = name := by
        rw [pluglibInstall] at installs
        cases load : (disk name).info with
        | none =>
          rw [load] at installs
          cases installs
        | some info =>
          rw [load] at installs
          obtain ⟨found, -, returned⟩ := bind_returns installs
          cases returned
          rfl
      rw [ih rest, map_append, map_singleton, named, append_assoc, singleton_append]

/-- Adopting changes the candidate list only. -/
theorem adoptPluglibs_cases {plugin new : Holder}
    (adopts : configurator.adoptPluglibs disk plugin = .ok (passed, next, new)) :
    ∃ entries, new = { plugin with candidatePluglibs := entries } ∧
      next.plugins = configurator.plugins ∧ next.loop.plugins = configurator.loop.plugins ∧
      next.configTrie = configurator.configTrie ∧
      (plugin.candidatePluglibs = [] → passed = true → next.pluglibNames = [] ∧
        entries.map PluglibEntry.name = configurator.pluglibNames) := by
  rw [Configurator.adoptPluglibs] at adopts
  split at adopts
  case isTrue empty =>
    cases adopts
    refine ⟨_, rfl, rfl, rfl, rfl, ?_⟩
    intro none _
    rw [none, empty]
    exact ⟨rfl, rfl⟩
  case isFalse =>
    split at adopts
    case isTrue =>
      cases adopts
      exact ⟨_, rfl, rfl, rfl, rfl, fun _ impossible => nomatch impossible⟩
    case isFalse =>
      obtain ⟨⟨installed, entries, libraries⟩, installs, returned⟩ := bind_returns adopts
      cases returned
      refine ⟨entries, rfl, rfl, rfl, rfl, ?_⟩
      intro _ both
      rw [Bool.and_eq_true] at both
      rw [both.1] at installs
      exact ⟨rfl, installAll_names installs⟩

theorem shareFds_alike (loop : Loop) (copy : Holder) :
    List.Forall₂ Holder.Alike loop.plugins (loop.shareFds copy).plugins := by
  rw [Loop.shareFds]
  split
  · exact forall₂_same.mpr fun plugin _ => alike_refl plugin
  · rw [Loop.modifyPlugin, forall₂_map_right_iff]
    apply forall₂_same.mpr
    intro plugin _
    split
    · exact alike_fds plugin _
    · exact alike_refl plugin

/-- The plugin is in the configurator after its configuration was checked. -/
theorem configCheck_cases (configurator : Configurator) (surroundings : Surroundings)
    (plugin : Holder) : ∃ fds,
      (configurator.configCheck surroundings plugin).2.plugins =
        configurator.plugins ++ [{ plugin with fds := fds }] ∧
      (configurator.configCheck surroundings plugin).2.configTrie = configurator.configTrie ∧
      (configurator.configCheck surroundings plugin).2.pluglibNames = configurator.pluglibNames ∧
      List.Forall₂ Holder.Alike configurator.loop.plugins
        (configurator.configCheck surroundings plugin).2.loop.plugins := by
  obtain ⟨plugins, fds, same⟩ := registerAll_plugins configurator.loop plugin surroundings.check
  have shared := shareFds_alike (configurator.loop.registerAll plugin surroundings.check).1
    (configurator.loop.registerAll plugin surroundings.check).2
  rw [plugins] at shared
  refine ⟨fds, ?_, rfl, rfl, shared⟩
  rw [← same]
  rfl

/-- A plugin with its candidates and descriptors set. -/
def Holder.fitted (plugin : Holder) (entries : List PluglibEntry) (fds : List Nat) : Holder :=
  { plugin with candidatePluglibs := entries, fds := fds }

/-- A plugin that was linked to its libraries. -/
def Holder.linked (plugin : Holder) (entries : List PluglibEntry) (targets fds : List Nat) : Holder :=
  { plugin with pluglibs := entries, links := targets, fds := fds }

/-- A kept plugin takes over all that was set, if it passes. -/
theorem keepPlugin_cases {old : Holder}
    (kept : configurator.keepPlugin surroundings old = .ok (passed, next)) :
    ∃ entries fds, next.plugins =
        configurator.plugins ++ [(configurator.copyHolder old).fitted entries fds] ∧
      next.configTrie = noOptions ∧
      (passed = true → next.pluglibNames = [] ∧
        entries.map PluglibEntry.name = configurator.pluglibNames) ∧
      List.Forall₂ Holder.Alike (configurator.takeOver old).loop.plugins next.loop.plugins := by
  rw [Configurator.keepPlugin] at kept
  obtain ⟨⟨adopted, copied, new⟩, adopts, returned⟩ := bind_returns kept
  obtain ⟨entries, rfl, plugins, loopPlugins, options, names⟩ := adoptPluglibs_cases adopts
  cases adopted with
  | true =>
    obtain ⟨fds, appended, trie, left, shared⟩ := configCheck_cases copied surroundings
      { configurator.copyHolder old with candidatePluglibs := entries }
    obtain rfl := congrArg Prod.snd (Except.ok.inj returned)
    refine ⟨entries, fds, ?_, trie.trans options, ?_, ?_⟩
    · rw [appended, plugins]
      rfl
    · intro _
      rw [left]
      exact names rfl rfl
    · rw [← loopPlugins]
      exact shared
  | false =>
    cases returned
    refine ⟨entries, old.fds, ?_, options, ?_, ?_⟩
    · dsimp only
      rw [plugins]
      rfl
    · intro impossible
      cases impossible
    · dsimp only
      rw [loopPlugins]
      exact forall₂_same.mpr fun plugin _ => alike_refl plugin

/-- The names of the libraries are used up in any case. -/
theorem linkPluglibs_cases {plugin new : Holder}
    (links : configurator.linkPluglibs disk plugin = .ok (passed, next, new)) :
    ∃ entries targets, new = { plugin with pluglibs := entries, links := targets } ∧
      next.plugins = configurator.plugins ∧ next.loop.plugins = configurator.loop.plugins ∧
      next.configTrie = configurator.configTrie ∧
      (plugin.pluglibs = [] → passed = true → next.pluglibNames = [] ∧
        entries.map PluglibEntry.name = configurator.pluglibNames) := by
  rw [Configurator.linkPluglibs] at links
  split at links
  case isTrue =>
    cases links
    refine ⟨_, _, rfl, rfl, rfl, rfl, ?_⟩
    intro none empty
    rw [none, of_decide_eq_true empty]
    exact ⟨rfl, rfl⟩
  case isFalse =>
    obtain ⟨⟨installed, entries, libraries⟩, installs, returned⟩ := bind_returns links
    cases returned
    refine ⟨entries, _, rfl, rfl, rfl, rfl, ?_⟩
    intro _ both
    rw [Bool.and_eq_true] at both
    rw [both.1] at installs
    exact ⟨rfl, installAll_names installs⟩

variable {libname : String}

/-- A plugin that is loaded uses up all that was set, also when it fails. -/
theorem loadPlugin_cases {load : PluginLoad} (found : surroundings.plugin = some load)
    (loaded : configurator.loadPlugin surroundings libname = .ok (passed, next)) :
    next.configTrie = noOptions ∧ next.pluglibNames = [] ∧
      List.Forall₂ Holder.Alike configurator.loop.plugins next.loop.plugins ∧
      (next.plugins = configurator.plugins ∧ passed = false ∨
        ∃ entries targets fds, entries.map PluglibEntry.name = configurator.pluglibNames ∧
          next.plugins = configurator.plugins ++
            [(configurator.newHolder load libname).linked entries targets fds]) := by
  have stays : List.Forall₂ Holder.Alike configurator.loop.plugins configurator.loop.plugins :=
    forall₂_same.mpr fun plugin _ => alike_refl plugin
  rw [Configurator.loadPlugin, found] at loaded
  obtain ⟨⟨linked, started, new⟩, links, returned⟩ := bind_returns loaded
  obtain ⟨entries, targets, rfl, plugins, loopPlugins, options, names⟩ := linkPluglibs_cases links
  have same : started.loop.plugins = configurator.loop.plugins := loopPlugins
  cases linked with
  | false =>
    cases returned
    refine ⟨options, rfl, ?_, .inl ⟨plugins, rfl⟩⟩
    show List.Forall₂ Holder.Alike _ started.loop.plugins
    rw [same]
    exact stays
  | true =>
    obtain ⟨nothing, named⟩ := names rfl rfl
    obtain ⟨registered, fds, shape⟩ := registerAll_plugins started.loop
      { configurator.newHolder load libname with pluglibs := entries, links := targets }
      surroundings.init
    have result := Except.ok.inj returned
    rw [Configurator.initPlugin] at result
    dsimp only at result
    rw [shape] at result
    split at result
    case isTrue =>
      cases result
      refine ⟨options, rfl, ?_, .inl ⟨plugins, rfl⟩⟩
      show List.Forall₂ Holder.Alike _ (started.loop.registerAll _ _).1.plugins
      rw [registered, same]
      exact stays
    case isFalse =>
      obtain ⟨fds, appended, trie, left, shared⟩ := configCheck_cases
        { started with loop := (started.loop.registerAll
          { configurator.newHolder load libname with pluglibs := entries, links := targets }
          surroundings.init).1 } surroundings
        { configurator.newHolder load libname with
          pluglibs := entries
          links := targets
          fds := fds }
      obtain rfl := congrArg Prod.snd result
      refine ⟨trie.trans options, left.trans nothing, ?_,
        .inr ⟨entries, targets, fds, named, ?_⟩⟩
      · dsimp only at shared
        rw [registered, same] at shared
        exact shared
      · rw [appended]
        dsimp only
        rw [plugins]
        rfl

theorem pluglibInstall_fresh {load : PluglibLoad} {entry : Option PluglibEntry}
    (installs : pluglibInstall libraries libname load live = .ok (entry, after)) :
    libraries.fresh ≤ after.fresh := by
  rw [pluglibInstall] at installs
  cases found : load.info with
  | none =>
    rw [found] at installs
    cases installs
    exact Nat.le_succ _
  | some info =>
    rw [found] at installs
    obtain ⟨candidate, -, returned⟩ := bind_returns installs
    cases returned
    cases live with
    | true => exact Nat.le_succ _
    | false => exact Nat.le_succ _

/-- Installing takes numbers in order. -/
theorem installAll_fresh {installed : Bool} {names : List String}
    {entries result : List PluglibEntry}
    (ran : installAll disk live names entries libraries = .ok (installed, result, after)) :
    libraries.fresh ≤ after.fresh := by
  induction names generalizing entries libraries with
  | nil =>
    cases ran
    exact le_rfl
  | cons name names ih =>
    rw [installAll] at ran
    obtain ⟨⟨entry, middle⟩, installs, rest⟩ := bind_returns ran
    have first := pluglibInstall_fresh installs
    cases entry with
    | none =>
      cases rest
      exact first
    | some entry => exact first.trans (ih rest)

theorem pluglibsUnlink_fresh (entries : List PluglibEntry) (libraries : Libraries) :
    (pluglibsUnlink entries libraries).fresh = libraries.fresh := by
  rw [pluglibsUnlink]
  induction entries generalizing libraries with
  | nil => rfl
  | cons entry entries ih =>
    rw [foldl_cons, ih]
    split
    · rfl
    · rfl

theorem shareFds_libraries (loop : Loop) (copy : Holder) :
    (loop.shareFds copy).libraries = loop.libraries := by
  rw [Loop.shareFds]
  split
  · rfl
  · rfl

theorem configCheck_grows (configurator : Configurator) (surroundings : Surroundings)
    (plugin : Holder) : configurator.loop.libraries.Grows
      (configurator.configCheck surroundings plugin).2.loop.libraries := by
  have shared : (configurator.configCheck surroundings plugin).2.loop.libraries =
      (configurator.loop.registerAll plugin surroundings.check).1.libraries :=
    shareFds_libraries _ _
  rw [shared]
  exact registerAll_grows _ _ _

theorem keepPlugin_fresh {old : Holder}
    (kept : configurator.keepPlugin surroundings old = .ok (passed, next)) :
    configurator.loop.libraries.fresh ≤ next.loop.libraries.fresh := by
  rw [Configurator.keepPlugin] at kept
  obtain ⟨⟨adopted, copied, new⟩, adopts, returned⟩ := bind_returns kept
  have grown : configurator.loop.libraries.fresh + 1 ≤ copied.loop.libraries.fresh := by
    rw [Configurator.adoptPluglibs] at adopts
    split at adopts
    case isTrue =>
      cases adopts
      exact le_rfl
    case isFalse =>
      split at adopts
      case isTrue =>
        cases adopts
        exact le_rfl
      case isFalse =>
        obtain ⟨⟨installed, entries, libraries⟩, installs, answered⟩ := bind_returns adopts
        cases answered
        exact installAll_fresh installs
  cases adopted with
  | true =>
    obtain rfl := congrArg Prod.snd (Except.ok.inj returned)
    exact (Nat.le_of_succ_le grown).trans (configCheck_grows copied surroundings new).fresh
  | false =>
    cases returned
    exact Nat.le_of_succ_le grown

/-- Loading a plugin never reuses a number. -/
theorem loadPlugin_fresh
    (loaded : configurator.loadPlugin surroundings libname = .ok (passed, next)) :
    configurator.loop.libraries.fresh ≤ next.loop.libraries.fresh := by
  rw [Configurator.loadPlugin] at loaded
  cases found : surroundings.plugin with
  | none =>
    rw [found] at loaded
    cases loaded
    exact le_rfl
  | some load =>
    rw [found] at loaded
    obtain ⟨⟨linked, started, new⟩, links, returned⟩ := bind_returns loaded
    have grown : configurator.loop.libraries.fresh + 2 ≤ started.loop.libraries.fresh := by
      rw [Configurator.linkPluglibs] at links
      split at links
      case isTrue =>
        cases links
        exact le_rfl
      case isFalse =>
        obtain ⟨⟨installed, entries, libraries⟩, installs, answered⟩ := bind_returns links
        cases answered
        exact installAll_fresh installs
    have started_le : configurator.loop.libraries.fresh ≤ started.loop.libraries.fresh := by omega
    cases linked with
    | false =>
      cases returned
      show _ ≤ (pluglibsUnlink _ _).fresh
      rw [pluglibsUnlink_fresh]
      exact started_le
    | true =>
      have registered := (registerAll_grows started.loop new surroundings.init).fresh
      have result := Except.ok.inj returned
      rw [Configurator.initPlugin] at result
      dsimp only at result
      split at result
      case isTrue =>
        cases result
        show _ ≤ (pluglibsUnlink _ _).fresh
        rw [pluglibsUnlink_fresh]
        exact started_le.trans registered
      case isFalse =>
        obtain rfl := congrArg Prod.snd result
        have checked := configCheck_grows
          { started with loop := (started.loop.registerAll new surroundings.init).1 }
          surroundings (started.loop.registerAll new surroundings.init).2
        exact (started_le.trans registered).trans checked.fresh

end Ucollect.Loading
