import Ucollect.Proof.Loading.Order

/-
At the end of a transaction each library has as many references as the plugins have entries for it.
-/

namespace Ucollect.Loading
open Library List

variable {configurator : Configurator} {callbacks : Callbacks} {loop : Loop}
  {plugins : List Holder} {used : List String} {refs : Nat → Nat}

/-- Between the transactions the loaded libraries are those that the plugins refer to. -/
structure Loop.Counted (loop : Loop) : Prop where
  counts : loop.libraries.Counts fun lib => references lib loop.plugins
  needed : ∀ node ∈ loop.libraries.pluglibs, node.info.isSome ∧ 0 < references node.id loop.plugins
  supports : ∀ plugin ∈ loop.plugins, loop.libraries.Supports plugin
  idle : ∀ plugin ∈ loop.plugins, plugin.candidatePluglibs = []
  placed : Placed loop []
  distinct : (loop.plugins.map Holder.libname).Nodup
  filled : ∀ plugin ∈ loop.plugins, plugin.libname ≠ ""

theorem references_pos {plugin : Holder} (member : plugin ∈ plugins) {entry : PluglibEntry}
    (listed : entry ∈ plugin.pluglibs) : 0 < references entry.lib plugins := by
  apply countP_pos_iff.mpr
  exact ⟨entry, mem_flatMap.mpr ⟨plugin, member, listed⟩, decide_eq_true rfl⟩

/-- The cleanup ends a transaction. -/
theorem counted_cleanup
    (counts : loop.libraries.Counts fun lib => references lib loop.plugins)
    (supports : ∀ plugin ∈ loop.plugins, loop.libraries.Supports plugin)
    (idle : ∀ plugin ∈ loop.plugins, plugin.candidatePluglibs = [])
    (placed : Placed loop []) (distinct : (loop.plugins.map Holder.libname).Nodup)
    (filled : ∀ plugin ∈ loop.plugins, plugin.libname ≠ "") :
    ({ loop with libraries := pluglibsCleanup loop.libraries } : Loop).Counted := by
  obtain ⟨cleaned, needed, holds⟩ := cleanup_counts counts
  constructor
  case counts => exact cleaned
  case needed => exact needed
  case supports =>
    intro plugin member
    have before := supports plugin member
    constructor
    case pluglibs =>
      intro entry listed
      obtain ⟨ready, held⟩ := before.pluglibs entry listed
      exact ⟨ready, holds entry.lib held (references_pos member listed)⟩
    case candidates =>
      rw [idle plugin member]
      exact serves_nil _
    case links => exact before.links
  case idle => exact idle
  case placed => exact ⟨placed.apart, placed.below⟩
  case distinct => exact distinct
  case filled => exact filled

theorem pluginDestroy_cases (loop : Loop) (plugin : Holder) (finish : List Registration) :
    (loop.pluginDestroy plugin finish).plugins = loop.plugins ∧
      ∃ grown, loop.libraries.Grows grown ∧
        (loop.pluginDestroy plugin finish).libraries = pluglibsUnlink plugin.pluglibs grown := by
  obtain ⟨plugins, fds, same⟩ := registerAll_plugins loop plugin finish
  refine ⟨plugins, _, registerAll_grows loop plugin finish, ?_⟩
  show pluglibsUnlink (loop.registerAll plugin finish).2.pluglibs _ = _
  rw [same]
  rfl

theorem alike_trans {first second third : List Holder}
    (one : List.Forall₂ Holder.Alike first second) (two : List.Forall₂ Holder.Alike second third) :
    List.Forall₂ Holder.Alike first third := by
  induction one generalizing third with
  | nil => exact two
  | cons holds _ ih =>
    cases two with
    | cons same rest => exact .cons (holds.trans same) (ih rest)

theorem alike_self (plugins : List Holder) : List.Forall₂ Holder.Alike plugins plugins :=
  forall₂_same.mpr fun plugin _ => alike_refl plugin

/-- An abort takes back the references of the new plugins. -/
theorem abortAll_counts
    (counts : loop.libraries.Counts fun lib => refs lib + references lib plugins)
    (serves : ∀ plugin ∈ plugins, loop.libraries.Serves plugin.pluglibs) :
    (plugins.foldl (Loop.abortPlugin callbacks) loop).libraries.Counts
        (fun lib => refs lib + references lib (plugins.filter fun plugin => !plugin.mark)) ∧
      loop.libraries.Extends (plugins.foldl (Loop.abortPlugin callbacks) loop).libraries ∧
      List.Forall₂ Holder.Alike loop.plugins
        (plugins.foldl (Loop.abortPlugin callbacks) loop).plugins := by
  induction plugins generalizing loop refs with
  | nil => exact ⟨counts, extends_refl _, alike_self _⟩
  | cons plugin plugins ih =>
    rw [foldl_cons]
    have here := serves plugin mem_cons_self
    have others := fun other member => serves other (mem_cons_of_mem plugin member)
    cases marked : plugin.mark with
    | true =>
      have destroyed : Loop.abortPlugin callbacks loop plugin =
          loop.pluginDestroy plugin (callbacks.finish plugin) := if_pos marked
      obtain ⟨same, grown, grows, unlinked⟩ :=
        pluginDestroy_cases loop plugin (callbacks.finish plugin)
      have extended := (extends_grow grows.pluglibs grows.fresh).trans
        (unlink_extends plugin.pluglibs grown)
      have less : (Loop.abortPlugin callbacks loop plugin).libraries.Counts
          fun lib => refs lib + references lib plugins := by
        rw [destroyed, unlinked]
        apply Libraries.Counts.unlink _ fun entry member => (here entry member).1
        apply (counts.grow grows.pluglibs grows.wrapped grows.fresh).congr
        intro lib
        rw [references_cons]
        omega
      rw [← unlinked, ← destroyed] at extended
      obtain ⟨all, later, alike⟩ := ih less fun other member =>
        (others other member).keeps extended.holds
      rw [filter_cons_of_neg (by simp [marked])]
      refine ⟨all, extended.trans later, ?_⟩
      rw [destroyed, same] at alike
      rw [destroyed]
      exact alike
    | false =>
      have stays : Loop.abortPlugin callbacks loop plugin =
          (loop.registerAll plugin (callbacks.configFinish plugin)).1.shareFds
            (loop.registerAll plugin (callbacks.configFinish plugin)).2 := by
        rw [Loop.abortPlugin, if_neg (by simp [marked])]
      obtain ⟨same, -⟩ := registerAll_plugins loop plugin (callbacks.configFinish plugin)
      have libs : (Loop.abortPlugin callbacks loop plugin).libraries =
          (loop.registerAll plugin (callbacks.configFinish plugin)).1.libraries := by
        rw [stays]
        exact shareFds_libraries _ _
      have grows := registerAll_grows loop plugin (callbacks.configFinish plugin)
      rw [← libs] at grows
      have extended := extends_grow grows.pluglibs grows.fresh
      have moved : (Loop.abortPlugin callbacks loop plugin).libraries.Counts
          fun lib => refs lib + entryCount lib plugin.pluglibs + references lib plugins := by
        apply (counts.grow grows.pluglibs grows.wrapped grows.fresh).congr
        intro lib
        rw [references_cons]
        omega
      obtain ⟨all, later, alike⟩ := ih moved fun other member =>
        (others other member).keeps extended.holds
      rw [filter_cons_of_pos (by simp [marked])]
      refine ⟨all.congr ?_, extended.trans later, ?_⟩
      · intro lib
        rw [references_cons]
        omega
      · have shared := shareFds_alike
          (loop.registerAll plugin (callbacks.configFinish plugin)).1
          (loop.registerAll plugin (callbacks.configFinish plugin)).2
        rw [same, ← stays] at shared
        exact alike_trans shared alike

/-- The marked plugins and the others make up all of them. -/
theorem references_parts (lib : Nat) (plugins : List Holder) :
    references lib plugins = references lib (plugins.filter Holder.mark) +
      references lib (plugins.filter fun plugin => !plugin.mark) := by
  induction plugins with
  | nil => rfl
  | cons plugin plugins ih =>
    cases marked : plugin.mark with
    | true =>
      rw [filter_cons_of_pos marked, filter_cons_of_neg (by simp [marked]), references_cons,
        references_cons, ih]
      omega
    | false =>
      rw [filter_cons_of_neg (by simp [marked]), filter_cons_of_pos (by simp [marked]),
        references_cons, references_cons, ih]
      omega

theorem references_same {first second : List Holder}
    (alike : List.Forall₂ Holder.Alike first second) (lib : Nat) :
    references lib second = references lib first := by
  rw [references_parts, references_parts lib first]
  have marks := @references_alike lib _ _ alike id
  have blanks := @references_alike lib _ _ alike not
  exact congrArg₂ (· + ·) marks blanks

/-- After an abort everything counts as before. -/
theorem abort_counted (balanced : Balanced configurator.loop configurator.plugins)
    (mirrored : Mirrored configurator.loop configurator.plugins)
    (named : Named configurator.loop configurator.plugins used)
    (placed : Placed configurator.loop configurator.plugins)
    (distinct : (configurator.loop.plugins.map Holder.libname).Nodup)
    (filled : ∀ plugin ∈ configurator.loop.plugins, plugin.libname ≠ "") :
    (loopConfigAbort callbacks configurator).Counted := by
  obtain ⟨counts, extended, alike⟩ := @abortAll_counts callbacks configurator.loop
    configurator.plugins _ balanced.counts fun plugin member => (balanced.news plugin member).pluglibs
  rw [loopConfigAbort]
  apply counted_cleanup
  · apply counts.congr
    intro lib
    rw [references_same alike, references_parts lib configurator.loop.plugins, mirrored lib]
  · exact supports_alike alike fun plugin member => (balanced.olds plugin member).keeps extended.holds
  · exact (named.alike alike).idle
  · constructor
    case apart =>
      rw [append_nil, map_alike (fun _ _ => rfl) alike]
      exact placed.olds
    case below =>
      rw [append_nil]
      intro plugin member
      obtain ⟨before, known, fds, rfl⟩ := forall₂_right alike member
      exact (placed.below before (mem_append_left _ known)).trans_le extended.fresh
  · have names : ∀ {first second : List Holder}, List.Forall₂ Holder.Alike first second →
        second.map Holder.libname = first.map Holder.libname := by
      intro first second related
      induction related with
      | nil => rfl
      | cons holds _ ih =>
        obtain ⟨fds, rfl⟩ := holds
        rw [map_cons, map_cons, ih]
    rw [names alike]
    exact distinct
  · intro plugin member
    obtain ⟨before, known, fds, rfl⟩ := forall₂_right alike member
    exact filled before known

/-- The plugins that are still marked give back their references. -/
theorem removeAll_counts
    (counts : loop.libraries.Counts fun lib =>
      references lib (plugins.filter Holder.mark) + refs lib)
    (serves : ∀ plugin ∈ plugins, loop.libraries.Serves plugin.pluglibs) :
    (plugins.foldl (Loop.removeMarked callbacks) loop).libraries.Counts refs ∧
      loop.libraries.Extends (plugins.foldl (Loop.removeMarked callbacks) loop).libraries := by
  induction plugins generalizing loop with
  | nil =>
    refine ⟨counts.congr ?_, extends_refl _⟩
    intro lib
    exact Nat.zero_add _
  | cons plugin plugins ih =>
    rw [foldl_cons]
    have others := fun other member => serves other (mem_cons_of_mem plugin member)
    cases marked : plugin.mark with
    | true =>
      have destroyed : Loop.removeMarked callbacks loop plugin =
          loop.pluginDestroy plugin (callbacks.finish plugin) := if_pos marked
      obtain ⟨-, grown, grows, unlinked⟩ :=
        pluginDestroy_cases loop plugin (callbacks.finish plugin)
      have extended := (extends_grow grows.pluglibs grows.fresh).trans
        (unlink_extends plugin.pluglibs grown)
      have less : (Loop.removeMarked callbacks loop plugin).libraries.Counts
          fun lib => references lib (plugins.filter Holder.mark) + refs lib := by
        rw [destroyed, unlinked]
        apply Libraries.Counts.unlink _ fun entry member =>
          (serves plugin mem_cons_self entry member).1
        apply (counts.grow grows.pluglibs grows.wrapped grows.fresh).congr
        intro lib
        rw [filter_cons_of_pos marked, references_cons]
        omega
      rw [← unlinked, ← destroyed] at extended
      obtain ⟨all, later⟩ := ih less fun other member =>
        (others other member).keeps extended.holds
      exact ⟨all, extended.trans later⟩
    | false =>
      have stays : Loop.removeMarked callbacks loop plugin = loop :=
        if_neg (by simp [marked])
      rw [stays]
      rw [filter_cons_of_neg (by simp [marked])] at counts
      exact ih counts others

/-- The references move to the new libraries of the plugin, if it has some. -/
theorem commitPlugin_counts {pair result : Loop × List Holder} {plugin : Holder}
    (counts : pair.1.libraries.Counts fun lib => refs lib + entryCount lib plugin.pluglibs)
    (supports : pair.1.libraries.Supports plugin)
    (plain : plugin.mark = true → plugin.candidatePluglibs = [])
    (committed : Loop.commitPlugin pair plugin = .ok result) :
    ∃ (new : Holder), result.2 = pair.2 ++ [new] ∧ new.address = plugin.address ∧
      new.libname = plugin.libname ∧ new.candidatePluglibs = [] ∧
      result.1.libraries.Supports new ∧ pair.1.libraries.Extends result.1.libraries ∧
      result.1.libraries.Counts fun lib => refs lib + entryCount lib new.pluglibs := by
  rw [Loop.commitPlugin] at committed
  split at committed
  case isTrue marked =>
    cases committed
    exact ⟨plugin, rfl, rfl, rfl, plain marked, supports, extends_refl _, counts⟩
  case isFalse =>
    obtain ⟨⟨libraries, new⟩, migrated, returned⟩ := bind_returns committed
    cases returned
    refine ⟨new, rfl, ?_⟩
    rw [migratePluglibs] at migrated
    split at migrated
    case isTrue empty =>
      cases migrated
      exact ⟨rfl, rfl, empty, supports, extends_refl _, counts⟩
    case isFalse =>
      dsimp only at migrated
      split at migrated
      case h_1 => cases migrated
      case h_2 links resolved =>
        cases migrated
        have unlinked := counts.unlink fun entry member => (supports.pluglibs entry member).1
        have extended := unlink_extends plugin.pluglibs pair.1.libraries
        have serving := supports.candidates.keeps extended.holds
        obtain ⟨linked, later⟩ := unlinked.link fun entry member => (serving entry member).2
        refine ⟨rfl, rfl, rfl, ?_, extended.trans later, linked⟩
        exact ⟨serving.keeps later.holds, serves_nil _, resolve_links resolved⟩

/-- Each plugin in turn has what it was promised. -/
theorem commitAll_counts {pair result : Loop × List Holder}
    (counts : pair.1.libraries.Counts fun lib =>
      references lib pair.2 + references lib plugins)
    (settled : ∀ plugin ∈ pair.2, pair.1.libraries.Supports plugin ∧ plugin.candidatePluglibs = [])
    (supports : ∀ plugin ∈ plugins, pair.1.libraries.Supports plugin)
    (plain : ∀ plugin ∈ plugins, plugin.mark = true → plugin.candidatePluglibs = [])
    (committed : plugins.foldlM Loop.commitPlugin pair = .ok result) :
    result.1.libraries.Counts (fun lib => references lib result.2) ∧
      (∀ plugin ∈ result.2, result.1.libraries.Supports plugin ∧ plugin.candidatePluglibs = []) ∧
      pair.1.libraries.Extends result.1.libraries ∧
      result.2.map Holder.address = (pair.2 ++ plugins).map Holder.address ∧
      result.2.map Holder.libname = (pair.2 ++ plugins).map Holder.libname := by
  induction plugins generalizing pair with
  | nil =>
    cases committed
    rw [append_nil]
    exact ⟨counts, settled, extends_refl _, rfl, rfl⟩
  | cons plugin plugins ih =>
    rw [foldlM_cons] at committed
    obtain ⟨middle, first, rest⟩ := bind_returns committed
    have counting : pair.1.libraries.Counts fun lib =>
        references lib pair.2 + references lib plugins + entryCount lib plugin.pluglibs := by
      apply counts.congr
      intro lib
      rw [references_cons]
      omega
    obtain ⟨new, appended, address, libname, idle, supported, extended, counted⟩ :=
      commitPlugin_counts counting (supports plugin mem_cons_self)
        (plain plugin mem_cons_self) first
    have more : middle.1.libraries.Counts fun lib =>
        references lib middle.2 + references lib plugins := by
      apply counted.congr
      intro lib
      rw [appended, references_append, references_singleton]
      omega
    have done : ∀ plugin ∈ middle.2,
        middle.1.libraries.Supports plugin ∧ plugin.candidatePluglibs = [] := by
      intro other member
      rw [appended] at member
      rcases mem_append.mp member with before | last
      · exact (settled other before).imp_left fun supports => supports.keeps extended.holds
      · rw [mem_singleton.mp last]
        exact ⟨supported, idle⟩
    obtain ⟨all, allSettled, later, addresses, libnames⟩ := ih more done
      (fun other member =>
        (supports other (mem_cons_of_mem _ member)).keeps extended.holds)
      (fun other member => plain other (mem_cons_of_mem _ member)) rest
    refine ⟨all, allSettled, extended.trans later, ?_, ?_⟩
    · rw [addresses, appended, append_assoc, singleton_append, map_append, map_append, map_cons,
        map_cons, address]
    · rw [libnames, appended, append_assoc, singleton_append, map_append, map_append, map_cons,
        map_cons, libname]

/-- The last callbacks do not touch the libraries. -/
theorem finishAll_pluglibs (plugins : List Holder) (pair : Loop × List Holder) :
    pair.1.libraries.Grows (plugins.foldl (Loop.finishPlugin callbacks) pair).1.libraries ∧
      ∃ told, (plugins.foldl (Loop.finishPlugin callbacks) pair).2 = pair.2 ++ told ∧
        List.Forall₂ (fun (first second : Holder) => ∃ options candidate fds, second =
          { first with configTrie := options, configCandidate := candidate, fds := fds })
          plugins told := by
  induction plugins generalizing pair with
  | nil => exact ⟨grows_refl _, [], (append_nil _).symm, .nil⟩
  | cons plugin plugins ih =>
    rw [foldl_cons]
    have registered := registerAll_grows pair.1
      { plugin with configTrie := plugin.configCandidate, configCandidate := noOptions }
      (callbacks.configFinish
        { plugin with configTrie := plugin.configCandidate, configCandidate := noOptions })
    obtain ⟨-, fds, same⟩ := registerAll_plugins pair.1
      { plugin with configTrie := plugin.configCandidate, configCandidate := noOptions }
      (callbacks.configFinish
        { plugin with configTrie := plugin.configCandidate, configCandidate := noOptions })
    obtain ⟨grows, told, appended, all⟩ := ih (Loop.finishPlugin callbacks pair plugin)
    refine ⟨registered.trans grows, { plugin with
      configTrie := plugin.configCandidate
      configCandidate := noOptions
      fds := fds } :: told, ?_, .cons ⟨_, _, _, rfl⟩ all⟩
    rw [appended, Loop.finishPlugin]
    dsimp only
    rw [same, append_assoc, singleton_append]

/-- The plugins read the same after the last callbacks. -/
theorem told_map {B : Type} {read : Holder → B} {told : List Holder}
    (blind : ∀ (plugin : Holder) options candidate fds, read { plugin with
      configTrie := options, configCandidate := candidate, fds := fds } = read plugin)
    (all : List.Forall₂ (fun (first second : Holder) => ∃ options candidate fds, second =
      { first with configTrie := options, configCandidate := candidate, fds := fds })
      plugins told) : told.map read = plugins.map read := by
  induction all with
  | nil => rfl
  | cons holds _ ih =>
    obtain ⟨options, candidate, fds, rfl⟩ := holds
    rw [map_cons, map_cons, blind, ih]

/-- After a commit everything counts again. -/
theorem commit_counted (balanced : Balanced configurator.loop configurator.plugins)
    (named : Named configurator.loop configurator.plugins used)
    (placed : Placed configurator.loop configurator.plugins) (filled : ∀ name ∈ used, name ≠ "")
    (committed : loopConfigCommit callbacks configurator = .ok loop) : loop.Counted := by
  rw [loopConfigCommit] at committed
  obtain ⟨⟨middle, settled⟩, migrated, returned⟩ := bind_returns committed
  obtain ⟨removed, extended⟩ := @removeAll_counts callbacks configurator.loop
    configurator.loop.plugins _ balanced.counts
    fun plugin member => (balanced.olds plugin member).pluglibs
  have counting : (configurator.loop.plugins.foldl (Loop.removeMarked callbacks)
      configurator.loop).libraries.Counts fun lib =>
        references lib [] + references lib configurator.plugins := by
    apply removed.congr
    intro lib
    exact (Nat.zero_add _).symm
  obtain ⟨counts, supports, later, addresses, libnames⟩ := commitAll_counts counting
    (fun plugin member => absurd member not_mem_nil)
    (fun plugin member => (balanced.news plugin member).keeps extended.holds) named.plain migrated
  obtain ⟨grows, told, appended, all⟩ := @finishAll_pluglibs callbacks settled (middle, [])
  rw [nil_append] at appended addresses libnames
  cases returned
  rw [appended]
  have sameAddresses : told.map Holder.address = configurator.plugins.map Holder.address :=
    (told_map (fun _ _ _ _ => rfl) all).trans addresses
  have sameLibnames : told.map Holder.libname = configurator.plugins.map Holder.libname :=
    (told_map (fun _ _ _ _ => rfl) all).trans libnames
  have whole := (extended.trans later).trans (extends_grow grows.pluglibs grows.fresh)
  apply @counted_cleanup { (settled.foldl (Loop.finishPlugin callbacks) (middle, [])).1 with
    plugins := told }
  · apply (counts.grow grows.pluglibs grows.wrapped grows.fresh).congr
    intro lib
    exact (references_congr (told_map (fun _ _ _ _ => rfl) all) lib).symm
  · intro plugin member
    obtain ⟨before, known, options, candidate, fds, rfl⟩ := forall₂_right all member
    have supported := (supports before known).1.keeps
      (extends_grow grows.pluglibs grows.fresh).holds
    exact ⟨supported.pluglibs, supported.candidates, supported.links⟩
  · intro plugin member
    obtain ⟨before, known, options, candidate, fds, rfl⟩ := forall₂_right all member
    exact (supports before known).2
  · constructor
    case apart =>
      rw [append_nil]
      exact sameAddresses ▸ placed.news
    case below =>
      rw [append_nil]
      intro plugin member
      have inside : plugin.address ∈ told.map Holder.address := List.mem_map_of_mem member
      rw [sameAddresses] at inside
      obtain ⟨before, known, same⟩ := List.mem_map.mp inside
      rw [← same]
      exact (placed.below before (mem_append_right _ known)).trans_le whole.fresh
  · exact sameLibnames ▸ named.distinct
  · intro plugin member
    have inside : plugin.libname ∈ told.map Holder.libname := List.mem_map_of_mem member
    rw [sameLibnames] at inside
    obtain ⟨before, known, same⟩ := List.mem_map.mp inside
    rw [← same]
    exact filled _ (named.listed before known)

end Ucollect.Loading
