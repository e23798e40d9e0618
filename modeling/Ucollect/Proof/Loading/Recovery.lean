import Ucollect.Proof.Loading.Adding

/-
The recovery after a crash sets the options and the libraries of every plugin once more. What the
crashed plugin does not use up falls to the next one.
-/

namespace Ucollect.Loading
open Library List Option

/-- This is what a plugin is configured with: its library, its options and the names of its
libraries. -/
structure Record where
  library : Nat
  libname : String
  options : Options
  pluglibs : List String

def Holder.record (plugin : Holder) : Record :=
  ⟨plugin.library, plugin.libname, plugin.configTrie, plugin.pluglibs.map PluglibEntry.name⟩

/-- This is what the plugin has after a commit. -/
def Holder.promise (plugin : Holder) : Record :=
  ⟨plugin.library, plugin.libname, plugin.configCandidate,
    (if plugin.mark ∨ plugin.candidatePluglibs = [] then plugin.pluglibs
      else plugin.candidatePluglibs).map PluglibEntry.name⟩

/-- This is what a plugin has after it was kept with other options pending before it. -/
def Holder.replayed (pending : Options) (plugin : Holder) : Record :=
  ⟨plugin.library, plugin.libname, fun name => pending name ++ plugin.configTrie name,
    if pending "pluglib" ++ plugin.configTrie "pluglib" = [] then
      plugin.pluglibs.map PluglibEntry.name
    else pending "pluglib" ++ plugin.configTrie "pluglib"⟩

variable {plugin : Holder}

/-- The plugins of a commit have what they were promised. -/
theorem commitPlugin_promise {pair result : Loop × List Holder}
    (committed : Loop.commitPlugin pair plugin = .ok result) :
    ∃ new, result.2 = pair.2 ++ [new] ∧ new.promise = plugin.promise ∧
      (new.mark ∨ new.candidatePluglibs = []) := by
  rw [Loop.commitPlugin] at committed
  split at committed
  case isTrue marked =>
    cases committed
    exact ⟨plugin, rfl, rfl, .inl marked⟩
  case isFalse unmarked =>
    obtain ⟨⟨libraries, new⟩, migrated, returned⟩ := bind_returns committed
    cases returned
    refine ⟨new, rfl, ?_⟩
    rw [migratePluglibs] at migrated
    split at migrated
    case isTrue empty =>
      cases migrated
      exact ⟨rfl, .inr empty⟩
    case isFalse some =>
      dsimp only at migrated
      split at migrated
      case h_1 => cases migrated
      case h_2 =>
        cases migrated
        refine ⟨?_, .inr rfl⟩
        rw [Holder.promise, Holder.promise, if_pos (.inr rfl), if_neg (by simp [unmarked, some])]

variable {plugins : List Holder}

theorem commitAll_promise {pair result : Loop × List Holder}
    (committed : plugins.foldlM Loop.commitPlugin pair = .ok result) :
    ∃ new, result.2 = pair.2 ++ new ∧ new.map Holder.promise = plugins.map Holder.promise ∧
      ∀ plugin ∈ new, plugin.mark ∨ plugin.candidatePluglibs = [] := by
  induction plugins generalizing pair with
  | nil =>
    cases committed
    exact ⟨[], (append_nil _).symm, rfl, fun _ member => absurd member not_mem_nil⟩
  | cons plugin plugins ih =>
    rw [foldlM_cons] at committed
    obtain ⟨middle, first, rest⟩ := bind_returns committed
    obtain ⟨new, appended, promised, adopted⟩ := commitPlugin_promise first
    obtain ⟨others, later, kept, all⟩ := ih rest
    refine ⟨new :: others, ?_, ?_, ?_⟩
    · rw [later, appended, append_assoc, singleton_append]
    · rw [map_cons, map_cons, promised, kept]
    · intro plugin member
      rcases mem_cons.mp member with rfl | inside
      · exact adopted
      · exact all plugin inside

theorem finishAll_record {callbacks : Callbacks} {plugins : List Holder}
    (adopted : ∀ plugin ∈ plugins, plugin.mark ∨ plugin.candidatePluglibs = [])
    (pair : Loop × List Holder) :
    (plugins.foldl (Loop.finishPlugin callbacks) pair).2.map Holder.record =
      pair.2.map Holder.record ++ plugins.map Holder.promise := by
  induction plugins generalizing pair with
  | nil => simp
  | cons plugin plugins ih =>
    rw [foldl_cons, ih fun other member => adopted other (mem_cons_of_mem _ member)]
    have finished : (Loop.finishPlugin callbacks pair plugin).2.map Holder.record =
        pair.2.map Holder.record ++ [plugin.promise] := by
      rw [Loop.finishPlugin]
      dsimp only
      obtain ⟨-, fds, same⟩ := registerAll_plugins pair.1
        { plugin with configTrie := plugin.configCandidate, configCandidate := noOptions }
        (callbacks.configFinish
          { plugin with configTrie := plugin.configCandidate, configCandidate := noOptions })
      rw [same, map_append, map_singleton, Holder.promise, if_pos (adopted plugin mem_cons_self)]
      rfl
    rw [finished, append_assoc, singleton_append, map_cons]

theorem loopConfigCommit_record {callbacks : Callbacks} {configurator : Configurator} {loop : Loop}
    (committed : loopConfigCommit callbacks configurator = .ok loop) :
    loop.plugins.map Holder.record = configurator.plugins.map Holder.promise := by
  rw [loopConfigCommit] at committed
  obtain ⟨⟨middle, plugins⟩, migrated, returned⟩ := bind_returns committed
  obtain ⟨new, appended, promised, adopted⟩ := commitAll_promise migrated
  rw [nil_append] at appended
  cases returned
  have finished := @finishAll_record callbacks new adopted (middle, [])
  rw [map_nil, nil_append, promised] at finished
  rw [← finished, ← appended]

/-- The holders are the same but for their descriptors and their marks. -/
def Holder.Known (first second : Holder) : Prop :=
  ∃ fds mark, second = { first with fds := fds, mark := mark }

variable {first : Holder}

theorem Holder.Known.alike {second third : Holder} (known : first.Known second)
    (alike : second.Alike third) : first.Known third := by
  obtain ⟨_, mark, rfl⟩ := known
  obtain ⟨fds, rfl⟩ := alike
  exact ⟨fds, mark, rfl⟩

variable {second : List Holder}

theorem known_alike {first third : List Holder} (known : List.Forall₂ Holder.Known first second)
    (alike : List.Forall₂ Holder.Alike second third) : List.Forall₂ Holder.Known first third := by
  induction known generalizing third with
  | nil =>
    cases alike
    exact .nil
  | cons holds _ ih =>
    cases alike with
    | cons same rest => exact .cons (holds.alike same) (ih rest)

/-- The old plugin is the only one whose mark goes. -/
theorem known_takeOver {hidden : List Holder} {configurator : Configurator}
    (known : List.Forall₂ Holder.Known hidden configurator.loop.plugins) (old : Holder) :
    List.Forall₂ Holder.Known hidden (configurator.takeOver old).loop.plugins := by
  show List.Forall₂ Holder.Known hidden (configurator.loop.plugins.map _)
  rw [forall₂_map_right_iff]
  apply known.imp
  rintro first second ⟨fds, mark, rfl⟩
  split
  · exact ⟨fds, false, rfl⟩
  · exact ⟨fds, mark, rfl⟩

theorem known_map {B : Type} {read : Holder → B}
    (blind : ∀ plugin fds mark, read { plugin with fds := fds, mark := mark } = read plugin)
    {first : List Holder} (known : List.Forall₂ Holder.Known first second) :
    second.map read = first.map read := by
  induction known with
  | nil => rfl
  | cons holds _ ih =>
    obtain ⟨fds, mark, rfl⟩ := holds
    rw [map_cons, map_cons, ih, blind]

/-- Distinct names find the plugin itself. -/
theorem find?_of_nodup (distinct : (plugins.map Holder.libname).Nodup) (member : plugin ∈ plugins) :
    plugins.find? (fun old => old.libname = plugin.libname) = some plugin := by
  induction plugins with
  | nil => cases member
  | cons first rest ih =>
    rw [map_cons, nodup_cons] at distinct
    rcases mem_cons.mp member with rfl | inside
    · rw [List.find?_cons_of_pos (by simp)]
    · have other : ¬ first.libname = plugin.libname := by
        intro same
        exact distinct.1 (same ▸ List.mem_map_of_mem inside)
      rw [List.find?_cons_of_neg (by simpa using other), ih distinct.2 inside]

theorem position_of_nodup {B : Type} {read : Holder → B} (distinct : (plugins.map read).Nodup)
    {first second : Nat} {one two : Holder} (holds : plugins[first]? = some one)
    (stands : plugins[second]? = some two) (same : read one = read two) : first = second := by
  have inside : first < (plugins.map read).length := by
    rw [length_map]
    exact (List.getElem?_eq_some_iff.mp holds).1
  apply (List.getElem?_inj inside distinct).mp
  rw [List.getElem?_map, List.getElem?_map, holds, stands, map_some, map_some, same]

variable {hidden : List Holder} {position base index : Nat} {pending : Options} {done : List Record}
  {configurator next : Configurator} {crash : Crash} {surroundings : Surroundings}

/-- The recovery has come to a plugin. The marks of the others are still there, and the options that
were not used up are pending. -/
structure Replays (hidden : List Holder) (position base index : Nat) (pending : Options)
    (done : List Record) (configurator : Configurator) : Prop where
  known : List.Forall₂ Holder.Known hidden configurator.loop.plugins
  marks : ∀ later plugin, index ≤ later → configurator.loop.plugins[later]? = some plugin →
    (plugin.mark = true ↔ later ≠ position)
  options : configurator.configTrie = pending
  names : configurator.pluglibNames = pending "pluglib"
  done : configurator.plugins.map Holder.promise = done
  fresh : base ≤ configurator.loop.libraries.fresh

/-- The copy of a plugin is promised its libraries and those that are pending. -/
theorem promise_copy {entries : List PluglibEntry} {fds : List Nat}
    (named : entries.map PluglibEntry.name = (configurator.configCopy plugin).pluglibNames)
    (names : configurator.pluglibNames = configurator.configTrie "pluglib") :
    (((configurator.configCopy plugin).copyHolder plugin).fitted entries fds).promise =
      plugin.replayed configurator.configTrie := by
  have listed : entries.map PluglibEntry.name =
      configurator.configTrie "pluglib" ++ plugin.configTrie "pluglib" := by
    rw [named, ← names]
    rfl
  rw [Holder.promise, Holder.replayed, ← listed]
  by_cases empty : entries = []
  · rw [if_pos (.inr empty), if_pos (by rw [empty]; rfl)]
    rfl
  · rw [if_neg (by simp [Configurator.copyHolder, Holder.fitted, empty]), if_neg (by simpa using empty)]
    rfl

theorem visit_marked (marked : plugin.mark = true)
    (visited : configurator.visit crash surroundings plugin = .ok next) :
    (configurator.configCopy plugin).loopAddPlugin surroundings plugin.libname =
      .ok (true, next) := by
  rw [Configurator.visit, if_pos marked] at visited
  obtain ⟨⟨passed, result⟩, added, returned⟩ := bind_returns visited
  cases passed with
  | true =>
    cases returned
    exact added
  | false => cases returned

/-- A plugin that has not crashed is kept with its options and with those that are pending. -/
theorem Replays.survivor (replays : Replays hidden position base index pending done configurator)
    (distinct : (hidden.map Holder.libname).Nodup) (placed : (hidden.map Holder.address).Nodup)
    (other : index ≠ position) (there : configurator.loop.plugins[index]? = some plugin)
    (hides : hidden[index]? = some first)
    (visited : configurator.visit crash surroundings plugin = .ok next) :
    Replays hidden position base (index + 1) noOptions (done ++ [first.replayed pending]) next := by
  have marked := (replays.marks index plugin le_rfl there).mpr other
  have libnames : configurator.loop.plugins.map Holder.libname = hidden.map Holder.libname :=
    known_map (fun _ _ _ => rfl) replays.known
  have addresses : configurator.loop.plugins.map Holder.address = hidden.map Holder.address :=
    known_map (fun _ _ _ => rfl) replays.known
  have found : (configurator.configCopy plugin).loop.plugins.find?
      (fun old => old.libname = plugin.libname) = some plugin :=
    find?_of_nodup (libnames ▸ distinct) (mem_of_getElem? there)
  have kept : (configurator.configCopy plugin).keepPlugin surroundings plugin = .ok (true, next) := by
    have added := visit_marked marked visited
    rw [Configurator.loopAddPlugin, found] at added
    exact added
  obtain ⟨entries, fds, plugins, options, names, alike⟩ := keepPlugin_cases kept
  obtain ⟨nothing, named⟩ := names rfl
  have grown : configurator.loop.libraries.fresh ≤ next.loop.libraries.fresh := by
    have grows := keepPlugin_fresh kept
    exact grows
  constructor
  case known => exact known_alike (known_takeOver replays.known _) alike
  case marks =>
    intro later found behind listed
    obtain ⟨before, taken, fds, rfl⟩ := forall₂_getElem? alike listed
    apply replays.marks later before (by omega)
    change (configurator.loop.plugins.map fun old => if old.address = plugin.address then
      { old with mark := false } else old)[later]? = some before at taken
    rw [List.getElem?_map] at taken
    obtain ⟨old, stood, changed⟩ := map_eq_some_iff.mp taken
    have elsewhere : old.address ≠ plugin.address := by
      intro same
      have apart := position_of_nodup (addresses ▸ placed) stood there same
      omega
    rw [if_neg elsewhere] at changed
    rw [← changed]
    exact stood
  case options => exact options
  case names => exact nothing
  case done =>
    obtain ⟨same, holds, known⟩ := forall₂_getElem? replays.known there
    cases holds.symm.trans hides
    have pends : configurator.pluglibNames = configurator.configTrie "pluglib" := by
      rw [replays.names, replays.options]
    rw [plugins, map_append, map_singleton, promise_copy named pends, replays.options]
    show configurator.plugins.map Holder.promise ++ _ = _
    rw [replays.done]
    obtain ⟨_, _, rfl⟩ := known
    rfl
  case fresh => exact replays.fresh.trans grown

/-- The loading of a plugin keeps the others as they are. -/
theorem Replays.alike (replays : Replays hidden position base index pending done configurator)
    (next : Configurator)
    (same : List.Forall₂ Holder.Alike configurator.loop.plugins next.loop.plugins)
    {options : Options} (trie : next.configTrie = options)
    (names : next.pluglibNames = options "pluglib") {more : List Record}
    (appended : next.plugins.map Holder.promise = more)
    (grown : configurator.loop.libraries.fresh ≤ next.loop.libraries.fresh) :
    Replays hidden position base (index + 1) options more next := by
  constructor
  case known => exact known_alike replays.known same
  case marks =>
    intro later plugin behind listed
    obtain ⟨before, stood, fds, rfl⟩ := forall₂_getElem? same listed
    exact replays.marks later before (by omega) stood
  case options => exact trie
  case names => exact names
  case done => exact appended
  case fresh => exact replays.fresh.trans grown

theorem setLastFailed_map {B : Type} {read : Holder → B}
    (blind : ∀ plugin failed, read { plugin with failed := failed } = read plugin) (failed : Nat)
    (plugins : List Holder) : (setLastFailed failed plugins).map read = plugins.map read := by
  induction plugins with
  | nil => rfl
  | cons plugin plugins ih =>
    cases plugins with
    | nil => exact congrArg (· :: []) (blind plugin failed)
    | cons second rest =>
      rw [setLastFailed, map_cons, map_cons, ih]
      intro impossible
      cases impossible

def Options.merge (first second : Options) : Options := fun name => first name ++ second name

/-- This is what the crashed plugin leaves for the next one. -/
def Crash.leftover (crash : Crash) (surroundings : Surroundings) (options : Options) : Options :=
  if crash.reinit = true ∧ surroundings.plugin.isSome then noOptions else options

/-- The failures of the crashed plugin are counted in its new holder. -/
theorem visit_reloads (crashed : plugin.mark = false) (again : crash.reinit = true)
    (visited : configurator.visit crash surroundings plugin = .ok next) :
    ∃ passed middle, (configurator.configCopy plugin).loopAddPlugin surroundings crash.libname =
        .ok (passed, middle) ∧ next.loop = middle.loop ∧ next.configTrie = middle.configTrie ∧
      next.pluglibNames = middle.pluglibNames ∧ (next.plugins = middle.plugins ∨
        next.plugins = setLastFailed (crash.failed + 1) middle.plugins) := by
  rw [Configurator.visit, if_neg (by simp [crashed]), if_pos again] at visited
  obtain ⟨⟨passed, middle⟩, added, returned⟩ := bind_returns visited
  cases passed with
  | true =>
    cases returned
    exact ⟨true, middle, added, rfl, rfl, rfl, .inr rfl⟩
  | false =>
    cases returned
    exact ⟨false, next, added, rfl, rfl, rfl, .inl rfl⟩

theorem visit_crashed (crashed : plugin.mark = false) (again : crash.reinit = true)
    (visited : configurator.visit crash surroundings plugin = .ok next) :
    ∃ passed middle, (configurator.configCopy plugin).loopAddPlugin surroundings crash.libname =
        .ok (passed, middle) ∧ next.loop = middle.loop ∧ next.configTrie = middle.configTrie ∧
      next.pluglibNames = middle.pluglibNames ∧
      next.plugins.map Holder.promise = middle.plugins.map Holder.promise := by
  obtain ⟨passed, middle, added, loops, trie, names, same | counted⟩ :=
    visit_reloads crashed again visited
  · exact ⟨passed, middle, added, loops, trie, names, by rw [same]⟩
  · refine ⟨passed, middle, added, loops, trie, names, ?_⟩
    rw [counted]
    exact setLastFailed_map (fun _ _ => rfl) _ _

/-- The crashed plugin is loaded with its own options, or it leaves them behind. -/
theorem Replays.crashed (replays : Replays hidden position base position pending done configurator)
    (missing : crash.reinit = true → ∀ plugin ∈ hidden, plugin.libname ≠ crash.libname)
    (there : configurator.loop.plugins[position]? = some plugin)
    (hides : hidden[position]? = some first)
    (visited : configurator.visit crash surroundings plugin = .ok next) :
    ∃ new : Option Record,
      Replays hidden position base (position + 1)
        (crash.leftover surroundings (pending.merge first.configTrie)) (done ++ new.toList) next ∧
      ∀ record, new = some record → record.libname = crash.libname ∧
        record.options = pending.merge first.configTrie ∧
        record.pluglibs = pending.merge first.configTrie "pluglib" ∧ base ≤ record.library := by
  have unmarked : plugin.mark = false := by
    rw [← Bool.not_eq_true, replays.marks position plugin le_rfl there]
    exact not_not_intro rfl
  have own : plugin.configTrie = first.configTrie := by
    obtain ⟨same, holds, _, _, rfl⟩ := forall₂_getElem? replays.known there
    cases holds.symm.trans hides
    rfl
  have merged : (configurator.configCopy plugin).configTrie = pending.merge first.configTrie := by
    rw [← own, ← replays.options]
    rfl
  have names : (configurator.configCopy plugin).pluglibNames =
      pending.merge first.configTrie "pluglib" := by
    rw [← own, Options.merge, ← replays.names]
    rfl
  have stays : List.Forall₂ Holder.Alike configurator.loop.plugins configurator.loop.plugins :=
    forall₂_same.mpr fun plugin _ => alike_refl plugin
  cases again : crash.reinit with
  | false =>
    rw [Configurator.visit, if_neg (by simp [unmarked]), if_neg (by simp [again])] at visited
    cases visited
    have left : crash.leftover surroundings (pending.merge first.configTrie) =
        pending.merge first.configTrie := if_neg (by simp [again])
    refine ⟨none, ?_, fun _ impossible => nomatch impossible⟩
    rw [left, toList_none, append_nil]
    exact replays.alike (configurator.configCopy plugin) stays merged names replays.done le_rfl
  | true =>
    obtain ⟨passed, middle, added, loops, trie, waiting, promised⟩ :=
      visit_crashed unmarked again visited
    have absent : (configurator.configCopy plugin).loop.plugins.find?
        (fun old => old.libname = crash.libname) = none := by
      rw [List.find?_eq_none]
      intro old member
      obtain ⟨known, listed, _, _, rfl⟩ := forall₂_right replays.known member
      simpa using missing again known listed
    rw [Configurator.loopAddPlugin, absent] at added
    have grown : configurator.loop.libraries.fresh ≤ next.loop.libraries.fresh := by
      have grows := loadPlugin_fresh added
      rw [loops]
      exact grows
    cases found : surroundings.plugin with
    | none =>
      rw [Configurator.loadPlugin, found] at added
      cases added
      have left : crash.leftover surroundings (pending.merge first.configTrie) =
          pending.merge first.configTrie := if_neg (by simp [found])
      refine ⟨none, ?_, fun _ impossible => nomatch impossible⟩
      rw [left, toList_none, append_nil]
      apply replays.alike next _ (trie.trans merged) (waiting.trans names)
        (promised.trans replays.done) grown
      rw [loops]
      exact stays
    | some load =>
      have left : crash.leftover surroundings (pending.merge first.configTrie) = noOptions :=
        if_pos ⟨again, by rw [found]; rfl⟩
      rw [left]
      obtain ⟨options, nothing, same, failed | loaded⟩ := loadPlugin_cases found added
      all_goals rw [← loops] at same
      · refine ⟨none, ?_, fun _ impossible => nomatch impossible⟩
        rw [toList_none, append_nil]
        apply replays.alike next same (trie.trans options) (waiting.trans nothing) _ grown
        rw [promised, failed.1]
        exact replays.done
      · obtain ⟨entries, targets, fds, named, appended⟩ := loaded
        refine ⟨some (((configurator.configCopy plugin).newHolder load crash.libname).linked
          entries targets fds).promise, ?_, ?_⟩
        · apply replays.alike next same (trie.trans options) (waiting.trans nothing) _ grown
          rw [promised, appended, map_append]
          show configurator.plugins.map Holder.promise ++ _ = _
          rw [replays.done]
          rfl
        · rintro record ⟨⟩
          refine ⟨rfl, merged, named.trans names, ?_⟩
          show base ≤ configurator.loop.libraries.fresh + 1
          exact replays.fresh.trans (Nat.le_succ _)

variable {around : Nat → Surroundings}

variable {positions : List Nat}

theorem visitAll_cons
    (visited : configurator.visitAll crash around (index :: positions) = .ok next) :
    ∃ plugin middle, configurator.loop.plugins[index]? = some plugin ∧
      configurator.visit crash (around index) plugin = .ok middle ∧
      middle.visitAll crash around positions = .ok next := by
  rw [Configurator.visitAll] at visited
  split at visited
  case h_1 => cases visited
  case h_2 plugin there =>
    obtain ⟨middle, first, rest⟩ := bind_returns visited
    exact ⟨plugin, middle, there, first, rest⟩

theorem visitAll_append {first second : List Nat}
    (visited : configurator.visitAll crash around (first ++ second) = .ok next) :
    ∃ middle, configurator.visitAll crash around first = .ok middle ∧
      middle.visitAll crash around second = .ok next := by
  induction first generalizing configurator with
  | nil => exact ⟨configurator, rfl, visited⟩
  | cons index first ih =>
    obtain ⟨plugin, middle, there, visit, rest⟩ := visitAll_cons visited
    obtain ⟨last, inner, outer⟩ := ih rest
    refine ⟨last, ?_, outer⟩
    rw [Configurator.visitAll, there]
    dsimp only
    rw [visit]
    exact inner

/-- The options that are pending fall to the first plugin. -/
def replayAll (pending : Options) : List Holder → List Record
  | [] => []
  | plugin :: plugins => plugin.replayed pending :: replayAll noOptions plugins

theorem replayAll_noOptions (plugins : List Holder) :
    replayAll noOptions plugins = plugins.map (Holder.replayed noOptions) := by
  induction plugins with
  | nil => rfl
  | cons plugin plugins ih => rw [replayAll, ih, map_cons]

/-- A stretch of plugins that have not crashed is kept. -/
theorem Replays.survivors (distinct : (hidden.map Holder.libname).Nodup)
    (placed : (hidden.map Holder.address).Nodup)
    (stretch : ∀ offset, offset < plugins.length →
      hidden[index + offset]? = plugins[offset]? ∧ index + offset ≠ position)
    (replays : Replays hidden position base index pending done configurator)
    (visited : configurator.visitAll crash around (List.range' index plugins.length) = .ok next) :
    Replays hidden position base (index + plugins.length)
      (if plugins = [] then pending else noOptions) (done ++ replayAll pending plugins) next := by
  induction plugins generalizing index pending done configurator with
  | nil =>
    cases visited
    rw [if_pos rfl, replayAll, append_nil]
    exact replays
  | cons first plugins ih =>
    rw [length_cons, List.range'_succ] at visited
    obtain ⟨plugin, middle, there, visit, rest⟩ := visitAll_cons visited
    obtain ⟨hides, other⟩ := stretch 0 (Nat.succ_pos _)
    have shifted : ∀ offset, offset < plugins.length →
        hidden[index + 1 + offset]? = plugins[offset]? ∧ index + 1 + offset ≠ position := by
      intro offset inside
      have moved := stretch (offset + 1) (by rw [length_cons]; omega)
      rw [List.getElem?_cons_succ, ← Nat.add_assoc, Nat.add_right_comm] at moved
      exact moved
    have later := ih shifted (replays.survivor distinct placed other there hides visit) rest
    rw [append_assoc, singleton_append, ite_self, Nat.add_right_comm, Nat.add_assoc] at later
    rw [if_neg (cons_ne_nil _ _), length_cons, replayAll]
    exact later

/-- The plugins before the crashed one get their own options, and so do those behind it, unless
something is left for them. -/
theorem Replays.all {front back : List Holder} {crashed : Holder}
    (distinct : ((front ++ crashed :: back).map Holder.libname).Nodup)
    (placed : ((front ++ crashed :: back).map Holder.address).Nodup)
    (missing : crash.reinit = true → ∀ plugin ∈ front ++ crashed :: back,
      plugin.libname ≠ crash.libname)
    (replays : Replays (front ++ crashed :: back) front.length base 0 noOptions [] configurator)
    (visited : configurator.visitAll crash around
      (List.range (front ++ crashed :: back).length) = .ok next) :
    ∃ new : Option Record,
      next.plugins.map Holder.promise = front.map (Holder.replayed noOptions) ++ new.toList ++
        replayAll (crash.leftover (around front.length) crashed.configTrie) back ∧
      ∀ record, new = some record → record.libname = crash.libname ∧
        record.options = crashed.configTrie ∧
        record.pluglibs = crashed.configTrie "pluglib" ∧ base ≤ record.library := by
  have cut : List.range (front ++ crashed :: back).length = List.range' 0 front.length ++
      front.length :: List.range' (front.length + 1) back.length := by
    rw [range_eq_range', length_append, length_cons, ← List.range'_append_1, Nat.zero_add,
      List.range'_succ]
  rw [cut] at visited
  obtain ⟨middle, before, behind⟩ := visitAll_append visited
  have frontStretch : ∀ offset, offset < front.length →
      (front ++ crashed :: back)[0 + offset]? = front[offset]? ∧ 0 + offset ≠ front.length := by
    intro offset inside
    rw [Nat.zero_add, List.getElem?_append_left inside]
    exact ⟨rfl, by omega⟩
  have kept := replays.survivors distinct placed frontStretch before
  rw [ite_self, nil_append, Nat.zero_add, replayAll_noOptions] at kept
  obtain ⟨plugin, last, there, visit, rest⟩ := visitAll_cons behind
  have hides : (front ++ crashed :: back)[front.length]? = some crashed := by
    rw [List.getElem?_append_right le_rfl, Nat.sub_self]
    rfl
  obtain ⟨new, stands, loaded⟩ := kept.crashed missing there hides visit
  have backStretch : ∀ offset, offset < back.length →
      (front ++ crashed :: back)[front.length + 1 + offset]? = back[offset]? ∧
        front.length + 1 + offset ≠ front.length := by
    intro offset _
    have behind : front.length + 1 + offset - front.length = offset + 1 := by omega
    rw [List.getElem?_append_right (by omega), behind, List.getElem?_cons_succ]
    exact ⟨rfl, by omega⟩
  have done := (stands.survivors distinct placed backStretch rest).done
  exact ⟨new, done, loaded⟩

/-- A search by name finds the same plugin in both lists. -/
theorem find?_known (known : List.Forall₂ Holder.Known hidden plugins) (libname : String) :
    Option.Rel Holder.Known (hidden.find? fun old => old.libname = libname)
      (plugins.find? fun old => old.libname = libname) := by
  induction known with
  | nil => exact .none
  | @cons first _ _ _ holds rest ih =>
    obtain ⟨fds, mark, rfl⟩ := holds
    by_cases same : first.libname = libname
    · rw [List.find?_cons_of_pos (by simpa using same), List.find?_cons_of_pos (by simpa using same)]
      exact .some ⟨fds, mark, rfl⟩
    · rw [List.find?_cons_of_neg (by simpa using same), List.find?_cons_of_neg (by simpa using same)]
      exact ih

/-- Each plugin of the configurator is a new one, or a copy of the first one with its name. -/
structure Copies (hidden : List Holder) (base position : Nat) (configurator : Configurator) :
    Prop where
  known : List.Forall₂ Holder.Known hidden configurator.loop.plugins
  unmarked : ∀ plugin, configurator.loop.plugins[position]? = some plugin → plugin.mark = false
  fresh : base ≤ configurator.loop.libraries.fresh
  firsts : ∀ library ∈ configurator.plugins.map Holder.library, base ≤ library ∨
    ∃ old, old.library = library ∧ hidden.find? (fun other => other.libname = old.libname) = some old

/-- A mark that is gone does not come back. -/
theorem Copies.takeOver_unmarked (copies : Copies hidden base position configurator) {old : Holder}
    (taken : (configurator.takeOver old).loop.plugins[position]? = some plugin) :
    plugin.mark = false := by
  change (configurator.loop.plugins.map fun other => if other.address = old.address then
    { other with mark := false } else other)[position]? = some plugin at taken
  rw [List.getElem?_map] at taken
  obtain ⟨before, stood, rfl⟩ := map_eq_some_iff.mp taken
  split
  · rfl
  · exact copies.unmarked before stood

theorem Copies.alike_unmarked (copies : Copies hidden base position configurator)
    (same : List.Forall₂ Holder.Alike configurator.loop.plugins next.loop.plugins) :
    ∀ plugin, next.loop.plugins[position]? = some plugin → plugin.mark = false := by
  intro plugin listed
  obtain ⟨before, stood, _, rfl⟩ := forall₂_getElem? same listed
  exact copies.unmarked before stood

/-- At most one plugin is added, and it is the copy of the first one with that name, if there is
one. -/
theorem Copies.added (copies : Copies hidden base position configurator) {libname : String} {passed : Bool}
    (added : configurator.loopAddPlugin surroundings libname = .ok (passed, next)) :
    Copies hidden base position next ∧ ∃ more,
      next.plugins.map Holder.library = configurator.plugins.map Holder.library ++ more ∧
      ∀ old, hidden.find? (fun other => other.libname = libname) = some old →
        old.library ∈ more := by
  have related := find?_known copies.known libname
  rw [Configurator.loopAddPlugin] at added
  cases hiddenFound : hidden.find? fun other => other.libname = libname with
  | some first =>
    rw [hiddenFound] at related
    generalize found : (configurator.loop.plugins.find? fun old => old.libname = libname) = old
      at related added
    cases related with
    | some known =>
      obtain ⟨fds, mark, rfl⟩ := known
      obtain ⟨entries, later, plugins, -, -, alike⟩ := keepPlugin_cases added
      have grown := keepPlugin_fresh added
      have appended : next.plugins.map Holder.library =
          configurator.plugins.map Holder.library ++ [first.library] := by
        rw [plugins, map_append]
        rfl
      refine ⟨⟨known_alike (known_takeOver copies.known _) alike, ?_, copies.fresh.trans grown, ?_⟩,
        [first.library], appended, ?_⟩
      · intro plugin listed
        obtain ⟨before, taken, _, rfl⟩ := forall₂_getElem? alike listed
        have gone := copies.takeOver_unmarked taken
        exact gone
      · intro library member
        rw [appended, mem_append, mem_singleton] at member
        rcases member with old | rfl
        · exact copies.firsts library old
        · have name := List.find?_some hiddenFound
          rw [decide_eq_true_iff] at name
          refine .inr ⟨first, rfl, ?_⟩
          rw [name]
          exact hiddenFound
      · rintro old ⟨⟩
        exact mem_singleton_self _
  | none =>
    rw [hiddenFound] at related
    generalize found : (configurator.loop.plugins.find? fun old => old.libname = libname) = old
      at related added
    cases related with
    | none =>
      have grown := loadPlugin_fresh added
      cases loads : surroundings.plugin with
      | none =>
        rw [Configurator.loadPlugin, loads] at added
        cases added
        exact ⟨copies, [], (append_nil _).symm, fun _ impossible => absurd impossible (some_ne_none _).symm⟩
      | some load =>
        obtain ⟨-, -, same, kept | loaded⟩ := loadPlugin_cases loads added
        · refine ⟨⟨known_alike copies.known same, copies.alike_unmarked same,
            copies.fresh.trans grown, ?_⟩, [], ?_, fun _ impossible => absurd impossible (some_ne_none _).symm⟩
          · rw [kept.1]
            exact copies.firsts
          · rw [kept.1, append_nil]
        · obtain ⟨entries, targets, fds, -, plugins⟩ := loaded
          have appended : next.plugins.map Holder.library =
              configurator.plugins.map Holder.library ++
                [configurator.loop.libraries.fresh + 1] := by
            rw [plugins, map_append]
            rfl
          refine ⟨⟨known_alike copies.known same, copies.alike_unmarked same,
            copies.fresh.trans grown, ?_⟩, _, appended, fun _ impossible => absurd impossible (some_ne_none _).symm⟩
          intro library member
          rw [appended, mem_append, mem_singleton] at member
          rcases member with old | rfl
          · exact copies.firsts library old
          · exact .inl (copies.fresh.trans (Nat.le_succ _))

theorem library_of_promise {first : List Holder}
    (same : first.map Holder.promise = second.map Holder.promise) :
    first.map Holder.library = second.map Holder.library := by
  have libraries := congrArg (List.map Record.library) same
  rw [List.map_map, List.map_map] at libraries
  exact libraries

/-- A visit of the crashed plugin or of one with its name adds a copy of the latter. -/
theorem Copies.visited (copies : Copies hidden base position configurator)
    (visited : configurator.visit crash surroundings plugin = .ok next) :
    Copies hidden base position next ∧ ∃ more,
      next.plugins.map Holder.library = configurator.plugins.map Holder.library ++ more ∧
      ∀ twin, crash.reinit = true →
        hidden.find? (fun other => other.libname = crash.libname) = some twin →
        plugin.mark = false ∨ plugin.libname = crash.libname → twin.library ∈ more := by
  have copied : Copies hidden base position (configurator.configCopy plugin) :=
    ⟨copies.known, copies.unmarked, copies.fresh, copies.firsts⟩
  cases marked : plugin.mark with
  | true =>
    obtain ⟨after, more, appended, first⟩ := copied.added (visit_marked marked visited)
    refine ⟨after, more, appended, ?_⟩
    intro twin _ found same
    rcases same with impossible | same
    · cases impossible
    · exact first twin (same ▸ found)
  | false =>
    cases again : crash.reinit with
    | true =>
      obtain ⟨passed, middle, added, loops, -, -, promised⟩ :=
        visit_crashed marked again visited
      obtain ⟨after, more, appended, first⟩ := copied.added added
      have libraries := library_of_promise promised
      refine ⟨⟨loops ▸ after.known, loops ▸ after.unmarked, loops ▸ after.fresh,
        libraries ▸ after.firsts⟩, more, libraries.trans appended, ?_⟩
      intro twin _ found _
      exact first twin found
    | false =>
      rw [Configurator.visit, if_neg (by simp [marked]), if_neg (by simp [again])] at visited
      cases visited
      exact ⟨copied, [], (append_nil _).symm, fun _ impossible => nomatch impossible⟩

theorem Copies.all (copies : Copies hidden base position configurator)
    (visited : configurator.visitAll crash around positions = .ok next) :
    Copies hidden base position next := by
  induction positions generalizing configurator with
  | nil =>
    cases visited
    exact copies
  | cons index positions ih =>
    obtain ⟨plugin, middle, -, visit, rest⟩ := visitAll_cons visited
    exact ih (copies.visited visit).1 rest

/-- A twin of the crashed plugin is copied for both of them. -/
theorem Copies.twins {twin : Holder} {twinAt : Nat} (again : crash.reinit = true)
    (found : hidden.find? (fun other => other.libname = crash.libname) = some twin)
    (place : hidden[twinAt]? = some twin) (apart : twinAt ≠ position)
    (copies : Copies hidden base position configurator)
    (visited : configurator.visitAll crash around positions = .ok next) :
    ∃ more, next.plugins.map Holder.library = configurator.plugins.map Holder.library ++ more ∧
      positions.count position + positions.count twinAt ≤ more.count twin.library := by
  induction positions generalizing configurator with
  | nil =>
    cases visited
    exact ⟨[], (append_nil _).symm, Nat.zero_le _⟩
  | cons index positions ih =>
    obtain ⟨plugin, middle, there, visit, rest⟩ := visitAll_cons visited
    obtain ⟨after, first, appended, adds⟩ := copies.visited visit
    obtain ⟨others, later, enough⟩ := ih after rest
    refine ⟨first ++ others, by rw [later, appended, append_assoc], ?_⟩
    rw [count_append, count_cons, count_cons]
    have one : index = position ∨ index = twinAt → 1 ≤ first.count twin.library := by
      intro which
      apply count_pos_iff.mpr
      apply adds twin again found
      rcases which with rfl | rfl
      · exact .inl (copies.unmarked plugin there)
      · obtain ⟨before, stood, _, _, rfl⟩ := forall₂_getElem? copies.known there
        cases stood.symm.trans place
        have name := List.find?_some found
        exact .inr (of_decide_eq_true name)
    simp only [beq_iff_eq]
    by_cases atCrashed : index = position
    · have some := one (.inl atCrashed)
      have other : ¬ index = twinAt := fun same => apart (same.symm.trans atCrashed)
      rw [if_pos atCrashed, if_neg other]
      omega
    · rw [if_neg atCrashed]
      by_cases atTwin : index = twinAt
      · have some := one (.inr atTwin)
        rw [if_pos atTwin]
        omega
      · rw [if_neg atTwin]
        omega

end Ucollect.Loading
