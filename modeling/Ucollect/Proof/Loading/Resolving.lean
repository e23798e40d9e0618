import Ucollect.Construction.Loading.Resolver
import Ucollect.Proof.Loading.Accounts

/-
This file proves which libraries the imports of a plugin are linked to, and when the libraries of a
kept plugin are checked before they are committed.
-/

namespace Ucollect.Loading
open Library List Option Function

section Searching

variable {link : Bool} {wanted : Symbol} {libraries : List (List Export)} {imports : List Import}

/-- This is the first export, in the order of the libraries, that fits the import. -/
def firstExport (libraries : List (List Export)) (wanted : Symbol) : Option Export :=
  libraries.flatten.find? fun offered => wanted.fits offered.symbol

/-- These are the imports with the functions of their first exports. -/
def Import.linked (libraries : List (List Export)) (wanted : Import) : Import :=
  { wanted with
    function := ((firstExport libraries wanted.symbol).map Export.function).getD wanted.function }

variable {search : Search}

theorem searchExports_found (exports : List Export) (found : search.found = true) :
    searchExports link wanted exports search = search := by
  cases exports with
  | nil => rfl
  | cons offered exports => rw [searchExports, if_pos found]

theorem searchExports_eq (exports : List Export) (searching : search.found = false) :
    searchExports link wanted exports search =
      match exports.find? fun offered => wanted.fits offered.symbol with
      | some offered => ⟨true, if link then offered.function else search.function⟩
      | none => search := by
  induction exports with
  | nil => rfl
  | cons offered exports ih =>
    rw [searchExports, if_neg (by rw [searching]; decide), List.find?_cons]
    by_cases named : offered.symbol.name = wanted.name
    · by_cases typed : offered.symbol.prototype = none ∨ wanted.prototype = none ∨
          offered.symbol.prototype = wanted.prototype
      · have fits : wanted.fits offered.symbol = true := decide_eq_true ⟨named, typed⟩
        rw [if_pos named, if_pos typed, fits]
      · have fits : wanted.fits offered.symbol = false := decide_eq_false fun both => typed both.2
        rw [if_pos named, if_neg typed, fits, ih]
    · have fits : wanted.fits offered.symbol = false := decide_eq_false fun both => named both.1
      rw [if_neg named, fits, ih]

theorem searchLibraries_found (libraries : List (List Export)) (found : search.found = true) :
    searchLibraries link wanted libraries search = search := by
  induction libraries with
  | nil => rfl
  | cons exports libraries ih =>
    rw [searchLibraries, foldl_cons, searchExports_found exports found]
    exact ih

/-- The search stops at the first match of all the libraries. -/
theorem searchLibraries_eq (libraries : List (List Export)) (function : Nat) :
    searchLibraries link wanted libraries ⟨false, function⟩ =
      match firstExport libraries wanted with
      | some offered => ⟨true, if link then offered.function else function⟩
      | none => ⟨false, function⟩ := by
  induction libraries with
  | nil => rfl
  | cons exports libraries ih =>
    rw [searchLibraries, foldl_cons, searchExports_eq exports rfl, firstExport, flatten_cons,
      List.find?_append]
    cases exports.find? fun offered => wanted.fits offered.symbol with
    | none => exact ih
    | some offered => exact searchLibraries_found libraries rfl

/-- The check and the linking succeed for the same imports. -/
theorem resolveInternal_fst (link : Bool) (libraries : List (List Export)) (imports : List Import) :
    (pluglibResolveFunctionsInternal link libraries imports).1 =
      imports.all fun wanted => (firstExport libraries wanted.symbol).isSome := by
  induction imports with
  | nil => rfl
  | cons wanted imports ih =>
    rw [pluglibResolveFunctionsInternal, searchLibraries_eq, all_cons, ← ih]
    cases firstExport libraries wanted.symbol <;> rfl

/-- The check changes no pointer. -/
theorem resolveInternal_check (libraries : List (List Export)) (imports : List Import) :
    (pluglibResolveFunctionsInternal false libraries imports).2 = imports := by
  induction imports with
  | nil => rfl
  | cons wanted imports ih =>
    rw [pluglibResolveFunctionsInternal, searchLibraries_eq]
    cases firstExport libraries wanted.symbol with
    | none => rfl
    | some offered => exact congrArg (wanted :: ·) ih

/-- Every import is linked to its first export. -/
theorem resolveInternal_link
    (found : (pluglibResolveFunctionsInternal true libraries imports).1 = true) :
    (pluglibResolveFunctionsInternal true libraries imports).2 =
      imports.map (Import.linked libraries) := by
  induction imports with
  | nil => rfl
  | cons wanted imports ih =>
    rw [pluglibResolveFunctionsInternal, searchLibraries_eq] at found ⊢
    rw [map_cons, Import.linked]
    cases first : firstExport libraries wanted.symbol with
    | none =>
      rw [first] at found
      cases found
    | some offered =>
      rw [first] at found
      exact congrArg (_ :: ·) (ih found)

end Searching

section Refinement

/-- These are the exports of the libraries of a plugin. The function stands for its library. -/
def Libraries.exports (libraries : Libraries) (entries : List PluglibEntry) : List (List Export) :=
  entries.map fun entry => (libraries.exported entry.lib).map fun symbol => ⟨symbol, entry.lib⟩

theorem firstExport_exports (libraries : Libraries) (entries : List PluglibEntry) (wanted : Symbol) :
    (firstExport (libraries.exports entries) wanted).map Export.function =
      (entries.find? fun entry => (libraries.exported entry.lib).any wanted.fits).map
        PluglibEntry.lib := by
  induction entries with
  | nil => rfl
  | cons entry entries ih =>
    rw [firstExport, Libraries.exports, map_cons, flatten_cons, List.find?_append, List.find?_map,
      List.find?_cons]
    cases matched : (libraries.exported entry.lib).any wanted.fits with
    | true =>
      obtain ⟨symbol, first⟩ := isSome_iff_exists.mp
        (List.find?_isSome.mpr (List.any_eq_true.mp matched))
      have same : List.find? ((fun offered : Export => wanted.fits offered.symbol) ∘
          fun symbol => ⟨symbol, entry.lib⟩) (libraries.exported entry.lib) = some symbol := first
      rw [same]
      rfl
    | false =>
      have none : List.find? ((fun offered : Export => wanted.fits offered.symbol) ∘
          fun symbol => ⟨symbol, entry.lib⟩) (libraries.exported entry.lib) = none := by
        rw [List.find?_eq_none]
        exact List.any_eq_false.mp matched
      rw [none]
      exact ih

/-- The search finds what the transactions of the loop resolve. -/
theorem pluglibResolveFunctions_refines (libraries : Libraries) (entries : List PluglibEntry)
    (imports : List Import) (link : Bool) :
    pluglibCheckFunctions libraries entries (imports.map Import.symbol) =
        (pluglibResolveFunctionsInternal link (libraries.exports entries) imports).1 ∧
      ∀ links, pluglibResolveFunctions libraries entries (imports.map Import.symbol) = some links →
        (pluglibResolveFunctionsInternal true (libraries.exports entries) imports).2.map
          Import.function = links := by
  have same : pluglibCheckFunctions libraries entries (imports.map Import.symbol) =
      imports.all fun wanted => (firstExport (libraries.exports entries) wanted.symbol).isSome := by
    rw [pluglibCheckFunctions, pluglibResolveFunctions, mapM_isSome, List.all_map]
    congr 1
    funext wanted
    rw [← @Option.isSome_map _ _ Export.function, firstExport_exports]
    rfl
  refine ⟨same.trans (resolveInternal_fst link _ _).symm, fun links resolved => ?_⟩
  have found : (imports.all fun wanted =>
      (firstExport (libraries.exports entries) wanted.symbol).isSome) = true := by
    rw [← same, pluglibCheckFunctions, resolved]
    rfl
  rw [resolveInternal_link ((resolveInternal_fst true _ _).trans found), List.map_map]
  have each : ∀ wanted ∈ imports, (entries.find? fun entry =>
      (libraries.exported entry.lib).any wanted.symbol.fits).map PluglibEntry.lib =
        some (Import.linked (libraries.exports entries) wanted).function := by
    intro wanted member
    obtain ⟨offered, first⟩ := isSome_iff_exists.mp (List.all_eq_true.mp found wanted member)
    rw [← firstExport_exports, Import.linked, first]
    rfl
  rw [pluglibResolveFunctions, mapM_map] at resolved
  exact Option.some.inj ((mapM_some each).symm.trans resolved)

end Refinement

section Keeping

variable {configurator next : Configurator} {surroundings : Surroundings} {old : Holder}
  {entries : List PluglibEntry} {libraries after : Libraries}

/-- Every import of a plugin that is kept has a function in its new libraries. -/
def Checked (configurator : Configurator) (surroundings : Surroundings) (old : Holder) : Prop :=
  ∀ next, configurator.keepPlugin surroundings old = .ok (true, next) →
    ∀ new, next.plugins.getLast? = some new → new.candidatePluglibs ≠ [] →
      pluglibCheckFunctions next.loop.libraries new.candidatePluglibs new.imports = true

/-- The new libraries have the imports that the old ones have, if they are looked at at all. -/
def NewCovers (configurator : Configurator) (surroundings : Surroundings) (old : Holder) : Prop :=
  configurator.pluglibNames ≠ [] → old.apiVersion ≠ 0 → surroundings.checkPasses = true →
    ∀ entries libraries,
      installAll surroundings.disk false configurator.pluglibNames []
        (configurator.takeOver old).loop.libraries = .ok (true, entries, libraries) →
      pluglibCheckFunctions libraries old.pluglibs old.imports = true →
      pluglibCheckFunctions libraries entries old.imports = true

theorem check_congr (same : after.pluglibs = libraries.pluglibs) (entries : List PluglibEntry)
    (imports : List Symbol) :
    pluglibCheckFunctions after entries imports = pluglibCheckFunctions libraries entries imports := by
  simp only [pluglibCheckFunctions, pluglibResolveFunctions, Libraries.exported, same]

/-- The copy of the old plugin with its new libraries. -/
def Configurator.adopted (configurator : Configurator) (old : Holder) (entries : List PluglibEntry) :
    Holder :=
  { configurator.copyHolder old with candidatePluglibs := entries }

/-- The configurator has used up the names. -/
def Configurator.installed (configurator : Configurator) (old : Holder) (libraries : Libraries) :
    Configurator :=
  { (configurator.takeOver old).setLibraries libraries with pluglibNames := [] }

/-- New libraries are installed before the functions are looked for in the old ones. -/
theorem keepPlugin_eq (named : configurator.pluglibNames ≠ []) (version : old.apiVersion ≠ 0) :
    configurator.keepPlugin surroundings old =
      (installAll surroundings.disk false configurator.pluglibNames []
        (configurator.takeOver old).loop.libraries).bind fun (installed, entries, libraries) =>
        if installed && pluglibCheckFunctions libraries old.pluglibs old.imports then
          .ok ((configurator.installed old libraries).configCheck surroundings
            (configurator.adopted old entries))
        else .ok (false, { configurator.installed old libraries with
          plugins := configurator.plugins ++ [configurator.adopted old entries] }) := by
  have named : (configurator.takeOver old).pluglibNames ≠ [] := named
  have version : (configurator.copyHolder old).apiVersion ≠ 0 := version
  have names : (configurator.takeOver old).pluglibNames = configurator.pluglibNames := rfl
  rw [Configurator.keepPlugin, Configurator.adoptPluglibs, if_neg named, if_neg version, names]
  cases installAll surroundings.disk false configurator.pluglibNames []
    (configurator.takeOver old).loop.libraries <;> rfl

theorem keepPlugin_none (unnamed : configurator.pluglibNames = []) :
    configurator.keepPlugin surroundings old =
      .ok ((configurator.takeOver old).configCheck surroundings (configurator.copyHolder old)) := by
  have unnamed : (configurator.takeOver old).pluglibNames = [] := unnamed
  rw [Configurator.keepPlugin, Configurator.adoptPluglibs, if_pos unnamed]
  rfl

theorem keepPlugin_zero (named : configurator.pluglibNames ≠ []) (version : old.apiVersion = 0) :
    configurator.keepPlugin surroundings old = .ok (false, { configurator.takeOver old with
      plugins := configurator.plugins ++ [configurator.copyHolder old] }) := by
  have named : (configurator.takeOver old).pluglibNames ≠ [] := named
  have version : (configurator.copyHolder old).apiVersion = 0 := version
  rw [Configurator.keepPlugin, Configurator.adoptPluglibs, if_neg named, if_pos version]
  rfl

/-- The last plugin of the configurator is the one that was checked. -/
theorem configCheck_last (plugin : Holder) :
    ∃ fds, (configurator.configCheck surroundings plugin).2.plugins.getLast? =
      some { plugin with fds := fds } := by
  obtain ⟨fds, plugins, -⟩ := configCheck_cases configurator surroundings plugin
  exact ⟨fds, by rw [plugins, List.getLast?_concat]⟩

/-- The new libraries of a plugin are the ones that were installed last. -/
theorem keepPlugin_checked_iff :
    Checked configurator surroundings old ↔ NewCovers configurator surroundings old := by
  constructor
  · intro checked named version passes entries libraries installs covered
    have kept := @keepPlugin_eq configurator surroundings old named version
    rw [installs] at kept
    dsimp only [Except.bind] at kept
    rw [covered, Bool.and_self, if_pos rfl] at kept
    have passed : ((configurator.installed old libraries).configCheck surroundings
        (configurator.adopted old entries)).1 = true := passes
    obtain ⟨fds, last⟩ := @configCheck_last (configurator.installed old libraries) surroundings
      (configurator.adopted old entries)
    have filled : entries ≠ [] := by
      rintro rfl
      exact named (installAll_names installs).symm
    have answer := checked _ (kept.trans (congrArg Except.ok (Prod.ext passed rfl))) _ last filled
    rwa [check_congr (configCheck_grows _ _ _).pluglibs] at answer
  · intro covers next kept new last filled
    by_cases named : configurator.pluglibNames = []
    · rw [keepPlugin_none named] at kept
      obtain ⟨fds, alike⟩ := @configCheck_last (configurator.takeOver old) surroundings
        (configurator.copyHolder old)
      obtain rfl := congrArg Prod.snd (Except.ok.inj kept)
      rw [last] at alike
      cases alike
      exact absurd rfl filled
    · by_cases version : old.apiVersion = 0
      · rw [keepPlugin_zero named version] at kept
        cases kept
      · rw [keepPlugin_eq named version] at kept
        obtain ⟨⟨installed, entries, libraries⟩, installs, returned⟩ := bind_returns kept
        dsimp only at returned
        split at returned
        case isFalse => cases returned
        case isTrue both =>
          rw [Bool.and_eq_true] at both
          rw [both.1] at installs
          have passes : surroundings.checkPasses = true :=
            congrArg Prod.fst (Except.ok.inj returned)
          obtain rfl := congrArg Prod.snd (Except.ok.inj returned)
          obtain ⟨fds, alike⟩ := @configCheck_last (configurator.installed old libraries) surroundings
            (configurator.adopted old entries)
          rw [last] at alike
          cases alike
          rw [check_congr (configCheck_grows _ _ _).pluglibs]
          exact covers named version passes entries libraries installs both.2

end Keeping

section Stability

variable {libraries after last : Libraries} {entries result : List PluglibEntry}
  {disk : String → PluglibLoad} {live installed : Bool} {names : List String}

/-- This is what the loop knows about the library. -/
def Libraries.known (libraries : Libraries) (lib : Nat) : Option (Option LibraryInfo) :=
  (libraries.pluglibs.find? fun node => node.id = lib).map Pluglib.info

/-- The loop still knows what it knew. -/
def Libraries.Stable (libraries after : Libraries) : Prop :=
  ∀ lib info, libraries.known lib = some info → after.known lib = some info

/-- The loop knows the libraries of the entries. -/
def Libraries.Offers (libraries : Libraries) (entries : List PluglibEntry) : Prop :=
  ∀ entry ∈ entries, (libraries.known entry.lib).isSome = true

theorem stable_of_known (same : ∀ lib, after.known lib = libraries.known lib) :
    libraries.Stable after :=
  fun lib _ known => (same lib).trans known

theorem Libraries.Stable.trans (first : libraries.Stable after) (second : after.Stable last) :
    libraries.Stable last :=
  fun lib info known => second lib info (first lib info known)

theorem Libraries.Grows.stable (grows : libraries.Grows after) : libraries.Stable after :=
  stable_of_known fun lib => by rw [Libraries.known, grows.pluglibs, Libraries.known]

theorem Libraries.Stable.offers (stable : libraries.Stable after)
    (offers : libraries.Offers entries) : after.Offers entries := by
  intro entry member
  obtain ⟨info, known⟩ := isSome_iff_exists.mp (offers entry member)
  rw [stable entry.lib info known]
  rfl

theorem exported_known (libraries : Libraries) (lib : Nat) :
    libraries.exported lib =
      (((libraries.known lib).getD none).map LibraryInfo.exports).getD [] := by
  rw [Libraries.exported, Libraries.known]
  cases libraries.pluglibs.find? fun node => node.id = lib <;> rfl

/-- The same functions are found as long as the libraries of the entries are known. -/
theorem Libraries.Stable.check (stable : libraries.Stable after)
    (offers : libraries.Offers entries) (imports : List Symbol) :
    pluglibCheckFunctions after entries imports =
      pluglibCheckFunctions libraries entries imports := by
  have same : ∀ entry ∈ entries, after.exported entry.lib = libraries.exported entry.lib := by
    intro entry member
    obtain ⟨info, known⟩ := isSome_iff_exists.mp (offers entry member)
    rw [exported_known, exported_known, known, stable entry.lib info known]
  have found : ∀ wanted : Symbol,
      entries.find? (fun entry => (after.exported entry.lib).any wanted.fits) =
        entries.find? fun entry => (libraries.exported entry.lib).any wanted.fits := by
    intro wanted
    apply List.find?_congr
    intro entry member
    rw [same entry member]
  simp only [pluglibCheckFunctions, pluglibResolveFunctions, found]

theorem count_known (libraries : Libraries) (lib : Nat) (change : Int) (other : Nat) :
    (libraries.count lib change).known other = libraries.known other := by
  rw [Libraries.known, Libraries.count, Libraries.known, List.find?_map, Option.map_map]
  have keeps : ∀ node : Pluglib, (if node.id = lib then { node with
      refCount := node.refCount + change } else node).id = node.id ∧ (if node.id = lib then
        { node with refCount := node.refCount + change } else node).info = node.info := by
    intro node
    split <;> exact ⟨rfl, rfl⟩
  congr 1
  · funext node
    exact (keeps node).2
  · congr 1
    funext node
    rw [comp_apply, (keeps node).1]

theorem unlink_known (entries : List PluglibEntry) (libraries : Libraries) (lib : Nat) :
    (pluglibsUnlink entries libraries).known lib = libraries.known lib := by
  rw [pluglibsUnlink]
  induction entries generalizing libraries with
  | nil => rfl
  | cons entry entries ih =>
    rw [foldl_cons, ih]
    split
    · exact count_known libraries entry.lib (-1) lib
    · rfl

theorem link_known (entries : List PluglibEntry) (libraries : Libraries) (lib : Nat) :
    (pluglibsLink entries libraries).known lib = libraries.known lib := by
  rw [pluglibsLink]
  induction entries generalizing libraries with
  | nil => rfl
  | cons entry entries ih => rw [foldl_cons, ih, count_known]

theorem append_stable (libraries : Libraries) (node : Pluglib) (fresh : Nat) :
    libraries.Stable ⟨libraries.pluglibs ++ [node], fresh, libraries.wrapped⟩ := by
  intro lib info known
  rw [Libraries.known] at known ⊢
  obtain ⟨found, first, same⟩ := map_eq_some_iff.mp known
  rw [List.find?_append, first, some_or, map_some, same]

theorem known_of_mem {node : Pluglib} (member : node ∈ libraries.pluglibs) :
    (libraries.known node.id).isSome = true := by
  rw [Libraries.known, isSome_map, List.find?_isSome]
  exact ⟨node, member, decide_eq_true rfl⟩

theorem pluglibInstall_stable {libname : String} {load : PluglibLoad}
    {entry : Option PluglibEntry}
    (installs : pluglibInstall libraries libname load live = .ok (entry, after)) :
    libraries.Stable after ∧ after.Offers entry.toList := by
  rw [pluglibInstall] at installs
  cases loaded : load.info with
  | none =>
    rw [loaded] at installs
    cases installs
    exact ⟨append_stable _ _ _, fun entry member => absurd member not_mem_nil⟩
  | some info =>
    rw [loaded] at installs
    obtain ⟨found, searched, returned⟩ := bind_returns installs
    have offered := @known_of_mem ⟨libraries.pluglibs ++
      [⟨libraries.fresh, load.hash, some info, 0⟩], libraries.fresh + 1, libraries.wrapped⟩
      found (findCandidate_cases searched).1
    have stays := append_stable libraries ⟨libraries.fresh, load.hash, some info, 0⟩
      (libraries.fresh + 1)
    cases live with
    | false =>
      cases returned
      refine ⟨stays, fun entry member => ?_⟩
      rw [mem_singleton.mp member]
      exact offered
    | true =>
      cases returned
      refine ⟨stays.trans (stable_of_known (count_known _ _ _)), fun entry member => ?_⟩
      rw [mem_singleton.mp member, if_pos rfl, count_known]
      exact offered

theorem installAll_stable (offers : libraries.Offers entries)
    (ran : installAll disk live names entries libraries = .ok (installed, result, after)) :
    libraries.Stable after ∧ after.Offers result := by
  induction names generalizing entries libraries with
  | nil =>
    cases ran
    exact ⟨fun _ _ known => known, offers⟩
  | cons name names ih =>
    rw [installAll] at ran
    obtain ⟨⟨entry, middle⟩, installs, rest⟩ := bind_returns ran
    obtain ⟨stays, offered⟩ := pluglibInstall_stable installs
    cases entry with
    | none =>
      cases rest
      exact ⟨stays, stays.offers offers⟩
    | some entry =>
      have more : middle.Offers (entries ++ [entry]) := by
        intro other member
        rcases mem_append.mp member with old | new
        · exact stays.offers offers other old
        · exact offered other new
      obtain ⟨later, all⟩ := ih more rest
      exact ⟨stays.trans later, all⟩

theorem findCandidate_concludes (node : Pluglib) (info : LibraryInfo) (nodes : List Pluglib) :
    Concludes (fun _ => True) (· ≠ .unresolved) (findCandidate node info nodes) := by
  induction nodes with
  | nil => exact Halt.noConfusion
  | cons candidate nodes ih =>
    rw [findCandidate]
    split
    · trivial
    · split
      · trivial
      · split
        · exact Halt.noConfusion
        · split
          · trivial
          · exact ih

/-- An installation may stop, but not because of a function. -/
theorem installAll_concludes (disk : String → PluglibLoad) (live : Bool) (names : List String)
    (entries : List PluglibEntry) (libraries : Libraries) :
    Concludes (fun _ => True) (· ≠ .unresolved) (installAll disk live names entries libraries) := by
  induction names generalizing entries libraries with
  | nil => trivial
  | cons name names ih =>
    rw [installAll]
    have installs : Concludes (fun _ => True) (· ≠ .unresolved)
        (pluglibInstall libraries name (disk name) live) := by
      rw [pluglibInstall]
      split
      · trivial
      · exact (findCandidate_concludes _ _ _).bind fun _ _ => trivial
    apply installs.bind
    rintro ⟨entry, middle⟩ -
    cases entry with
    | none => trivial
    | some entry => exact ih _ _

end Stability

section Committing

variable {configurator next : Configurator} {surroundings : Surroundings} {passed : Bool}
  {libname : String} {callbacks : Callbacks} {sections : List Section} {loop : Loop}

/-- Every kept plugin can be linked to its new libraries. -/
def Committable (configurator : Configurator) : Prop :=
  ∀ plugin ∈ configurator.plugins, plugin.mark = false → plugin.candidatePluglibs ≠ [] →
    configurator.loop.libraries.Offers plugin.candidatePluglibs ∧
      pluglibCheckFunctions configurator.loop.libraries plugin.candidatePluglibs
        plugin.imports = true

/-- The configurator with the libraries and the options of a section. -/
def Configurator.given (configurator : Configurator) (options : List (String × String)) :
    Configurator :=
  options.foldl (fun configurator (name, value) => configurator.setPluginOpt name value)
    (((options.filter fun option => option.1 = "pluglib").map Prod.snd).foldl
      Configurator.setPluglib configurator)

/-- The new libraries of the section have the imports of the plugin if it is kept. -/
def Section.Covered (configurator : Configurator) : Section → Prop
  | .plugin libname options surroundings =>
    ∀ old, (configurator.given options).loop.plugins.find?
        (fun plugin => plugin.libname = libname) = some old →
      NewCovers (configurator.given options) surroundings old
  | .other _ => True

/-- Every section is covered when it is read. -/
def Configurator.Covered : List Section → Configurator → Prop
  | [], _ => True
  | item :: items, configurator => item.Covered configurator ∧
      ∀ next, configurator.loadSection item = .ok (true, next) → Covered items next

theorem keepPlugin_stable {old : Holder}
    (kept : configurator.keepPlugin surroundings old = .ok (passed, next)) :
    configurator.loop.libraries.Stable next.loop.libraries ∧
      ∃ new, next.plugins = configurator.plugins ++ [new] ∧
        next.loop.libraries.Offers new.candidatePluglibs := by
  have start : configurator.loop.libraries.Stable (configurator.takeOver old).loop.libraries :=
    fun _ _ known => known
  by_cases named : configurator.pluglibNames = []
  · rw [keepPlugin_none named] at kept
    obtain rfl := congrArg Prod.snd (Except.ok.inj kept)
    obtain ⟨fds, plugins, -⟩ := configCheck_cases (configurator.takeOver old) surroundings
      (configurator.copyHolder old)
    exact ⟨start.trans (configCheck_grows _ _ _).stable, _, plugins,
      fun entry member => absurd member not_mem_nil⟩
  · by_cases version : old.apiVersion = 0
    · rw [keepPlugin_zero named version] at kept
      obtain rfl := congrArg Prod.snd (Except.ok.inj kept)
      exact ⟨start, _, rfl, fun entry member => absurd member not_mem_nil⟩
    · rw [keepPlugin_eq named version] at kept
      obtain ⟨⟨installed, entries, libraries⟩, installs, returned⟩ := bind_returns kept
      obtain ⟨stays, offers⟩ := installAll_stable
        (fun entry member => absurd member not_mem_nil) installs
      dsimp only at returned
      split at returned
      · obtain rfl := congrArg Prod.snd (Except.ok.inj returned)
        obtain ⟨fds, plugins, -⟩ := configCheck_cases (configurator.installed old libraries)
          surroundings (configurator.adopted old entries)
        have grows := (configCheck_grows (configurator.installed old libraries) surroundings
          (configurator.adopted old entries)).stable
        exact ⟨(start.trans stays).trans grows, _, plugins, grows.offers offers⟩
      · obtain rfl := congrArg Prod.snd (Except.ok.inj returned)
        exact ⟨start.trans stays, _, rfl, offers⟩

theorem linkPluglibs_stable {plugin new : Holder} {disk : String → PluglibLoad}
    (links : configurator.linkPluglibs disk plugin = .ok (passed, next, new)) :
    configurator.loop.libraries.Stable next.loop.libraries := by
  rw [Configurator.linkPluglibs] at links
  split at links
  · cases links
    exact fun _ _ known => known
  · obtain ⟨⟨installed, entries, libraries⟩, installs, returned⟩ := bind_returns links
    cases returned
    exact (installAll_stable (fun entry member => absurd member not_mem_nil) installs).1

theorem loadPlugin_stable
    (loaded : configurator.loadPlugin surroundings libname = .ok (passed, next)) :
    configurator.loop.libraries.Stable next.loop.libraries := by
  rw [Configurator.loadPlugin] at loaded
  cases found : surroundings.plugin with
  | none =>
    rw [found] at loaded
    cases loaded
    exact fun _ _ known => known
  | some load =>
    rw [found] at loaded
    obtain ⟨⟨linked, started, new⟩, links, returned⟩ := bind_returns loaded
    have start : configurator.useOptions.loop.libraries.Stable started.loop.libraries :=
      linkPluglibs_stable links
    cases linked with
    | false =>
      cases returned
      exact start.trans (stable_of_known (unlink_known _ _))
    | true =>
      have registered := (registerAll_grows started.loop new surroundings.init).stable
      have result := Except.ok.inj returned
      rw [Configurator.initPlugin] at result
      dsimp only at result
      split at result
      · cases result
        exact (start.trans registered).trans (stable_of_known (unlink_known _ _))
      · obtain rfl := congrArg Prod.snd result
        exact (start.trans registered).trans (configCheck_grows
          { started with loop := (started.loop.registerAll new surroundings.init).1 }
          surroundings (started.loop.registerAll new surroundings.init).2).stable

/-- What was checked before stays committable. -/
theorem Committable.append (committable : Committable configurator)
    (stable : configurator.loop.libraries.Stable next.loop.libraries) {new : Holder}
    (plugins : next.plugins = configurator.plugins ++ [new])
    (last : new.mark = false → new.candidatePluglibs ≠ [] →
      next.loop.libraries.Offers new.candidatePluglibs ∧
        pluglibCheckFunctions next.loop.libraries new.candidatePluglibs new.imports = true) :
    Committable next := by
  intro plugin member kept filled
  rw [plugins] at member
  rcases mem_append.mp member with before | new
  · obtain ⟨offers, checked⟩ := committable plugin before kept filled
    exact ⟨stable.offers offers, by rw [stable.check offers, checked]⟩
  · cases mem_singleton.mp new
    exact last kept filled

theorem Committable.added (committable : Committable configurator)
    (covers : ∀ old, configurator.loop.plugins.find? (fun plugin => plugin.libname = libname) =
      some old → NewCovers configurator surroundings old)
    (added : configurator.loopAddPlugin surroundings libname = .ok (true, next)) :
    Committable next := by
  rw [Configurator.loopAddPlugin] at added
  split at added
  case h_1 old found =>
    obtain ⟨stable, new, plugins, offers⟩ := keepPlugin_stable added
    apply committable.append stable plugins
    intro _ filled
    have last : next.plugins.getLast? = some new := by rw [plugins, List.getLast?_concat]
    exact ⟨offers, keepPlugin_checked_iff.mpr (covers old found) next added new last filled⟩
  case h_2 =>
    have stable := loadPlugin_stable added
    cases found : surroundings.plugin with
    | none =>
      rw [Configurator.loadPlugin, found] at added
      cases added
    | some load =>
      obtain ⟨-, -, -, ⟨-, failed⟩ | ⟨entries, targets, fds, -, plugins⟩⟩ :=
        loadPlugin_cases found added
      · cases failed
      · exact committable.append stable plugins
          fun unmarked => absurd unmarked.symm Bool.false_ne_true

/-- Adding a plugin may stop the daemon, but not because of a function. -/
theorem loopAddPlugin_concludes (configurator : Configurator) (surroundings : Surroundings)
    (libname : String) : Concludes (fun _ => True) (· ≠ .unresolved)
      (configurator.loopAddPlugin surroundings libname) := by
  rw [Configurator.loopAddPlugin]
  split
  case h_1 old _ =>
    rw [Configurator.keepPlugin, Configurator.adoptPluglibs]
    split
    · trivial
    · split
      · trivial
      · cases installs : installAll surroundings.disk false
            (configurator.takeOver old).pluglibNames []
            (configurator.takeOver old).loop.libraries with
        | error halt => exact (installAll_concludes _ _ _ _ _).fault installs
        | ok result =>
          dsimp only [bind, Except.bind]
          split <;> trivial
  case h_2 =>
    rw [Configurator.loadPlugin]
    split
    · trivial
    · rw [Configurator.linkPluglibs]
      split
      · dsimp only [bind, Except.bind]
        split <;> trivial
      · cases installs : installAll surroundings.disk true configurator.useOptions.pluglibNames []
            configurator.useOptions.loop.libraries with
        | error halt => exact (installAll_concludes _ _ _ _ _).fault installs
        | ok result =>
          dsimp only [bind, Except.bind]
          split <;> trivial

/-- The sections that were accepted leave plugins that can be committed. -/
theorem loadPackage_committable (committable : Committable configurator)
    (covered : configurator.Covered sections) :
    Concludes (fun result => result.1 = true → Committable result.2) (· ≠ .unresolved)
      (configurator.loadPackage sections) := by
  induction sections generalizing configurator with
  | nil => exact fun _ => committable
  | cons item items ih =>
    rw [Configurator.loadPackage]
    have reads : Concludes (fun result => configurator.loadSection item = .ok result ∧
        (result.1 = true → Committable result.2)) (· ≠ .unresolved)
        (configurator.loadSection item) := by
      cases item with
      | other accepted => exact ⟨rfl, fun _ => committable⟩
      | plugin libname options surroundings =>
        have adds := loopAddPlugin_concludes (configurator.given options) surroundings libname
        show Concludes _ _ ((configurator.given options).loopAddPlugin surroundings libname)
        obtain ⟨optionsLoop, optionsPlugins⟩ := setOptions_loop options
          (((options.filter fun option => option.1 = "pluglib").map Prod.snd).foldl
            Configurator.setPluglib configurator)
        obtain ⟨pluglibsLoop, pluglibsPlugins⟩ := setPluglibs_loop
          ((options.filter fun option => option.1 = "pluglib").map Prod.snd) configurator
        have start : Committable (configurator.given options) := by
          rw [Committable, Configurator.given, optionsPlugins, pluglibsPlugins, optionsLoop,
            pluglibsLoop]
          exact committable
        cases added : (configurator.given options).loopAddPlugin surroundings libname with
        | error halt =>
          rw [added] at adds
          exact adds
        | ok result =>
          obtain ⟨accepted, next⟩ := result
          refine ⟨added, ?_⟩
          rintro (rfl : accepted = true)
          exact start.added covered.1 added
    apply reads.bind
    rintro ⟨accepted, next⟩ ⟨read, ready⟩
    cases accepted with
    | false => exact fun impossible => absurd impossible Bool.false_ne_true
    | true => exact ih (ready rfl) (covered.2 next read)

theorem removeMarked_stable (loop : Loop) (plugin : Holder) :
    loop.libraries.Stable (loop.removeMarked callbacks plugin).libraries := by
  rw [Loop.removeMarked]
  split
  · exact (registerAll_grows loop plugin (callbacks.finish plugin)).stable.trans
      (stable_of_known (unlink_known _ _))
  · exact fun _ _ known => known

/-- A plugin that was checked is linked. -/
theorem commitPlugin_concludes {pair : Loop × List Holder} {libraries : Libraries}
    (stable : libraries.Stable pair.1.libraries) {plugin : Holder}
    (ready : plugin.mark = false → plugin.candidatePluglibs ≠ [] →
      libraries.Offers plugin.candidatePluglibs ∧
        pluglibCheckFunctions libraries plugin.candidatePluglibs plugin.imports = true) :
    Concludes (fun result => libraries.Stable result.1.libraries) (· ≠ .unresolved)
      (Loop.commitPlugin pair plugin) := by
  rw [Loop.commitPlugin]
  split
  case isTrue => exact stable
  case isFalse unmarked =>
    have migrates : Concludes (fun result => libraries.Stable result.1) (· ≠ .unresolved)
        (migratePluglibs pair.1.libraries plugin) := by
      rw [migratePluglibs]
      split
      case isTrue => exact stable
      case isFalse filled =>
        obtain ⟨offers, checked⟩ := ready (Bool.eq_false_iff.mpr unmarked) filled
        have moved : libraries.Stable (pluglibsLink plugin.candidatePluglibs
            (pluglibsUnlink plugin.pluglibs pair.1.libraries)) :=
          stable.trans (stable_of_known fun lib => by rw [link_known, unlink_known])
        have found := moved.check offers plugin.imports
        rw [checked, pluglibCheckFunctions] at found
        obtain ⟨links, resolved⟩ := isSome_iff_exists.mp found
        dsimp only
        rw [resolved]
        exact moved
    exact migrates.bind fun result stays => stays

/-- The functions of a plugin that was checked are found at the end of the transaction. -/
theorem loopConfigCommit_concludes (committable : Committable configurator) :
    Concludes (fun _ => True) (· ≠ .unresolved) (loopConfigCommit callbacks configurator) := by
  have removes : ∀ (plugins : List Holder) (loop : Loop), loop.libraries.Stable
      (plugins.foldl (Loop.removeMarked callbacks) loop).libraries := by
    intro plugins
    induction plugins with
    | nil => exact fun _ _ _ known => known
    | cons plugin plugins ih => exact fun loop => (removeMarked_stable loop plugin).trans (ih _)
  have commits : Concludes (fun pair : Loop × List Holder =>
      configurator.loop.libraries.Stable pair.1.libraries) (· ≠ .unresolved)
      (configurator.plugins.foldlM Loop.commitPlugin
        (configurator.loop.plugins.foldl (Loop.removeMarked callbacks) configurator.loop, [])) := by
    refine concludes_foldlM ?_ ?_
    · exact removes configurator.loop.plugins configurator.loop
    · intro pair stable plugin member
      exact commitPlugin_concludes stable (committable plugin member)
  exact commits.bind fun _ _ => trivial

theorem loadConfig_resolves (covered : (loopConfigStart loop).Covered sections) :
    loadConfig callbacks sections loop ≠ .error .unresolved := by
  have start : Committable (loopConfigStart loop) :=
    fun plugin member => absurd member not_mem_nil
  have loads : Concludes (fun _ => True) (· ≠ .unresolved) (loadConfig callbacks sections loop) := by
    rw [loadConfig]
    apply (loadPackage_committable start covered).bind
    rintro ⟨accepted, configurator⟩ ready
    cases accepted with
    | true => exact loopConfigCommit_concludes (ready rfl)
    | false => trivial
  exact fun stopped => loads.fault stopped rfl

end Committing

/-- A kept plugin gets libraries that have its imports when the new libraries have what the old ones
have, and then nothing is missing at the end of the transaction. The first export that fits is
linked, and the check succeeds when the linking does. -/
theorem pluglibs_checked (configurator : Configurator) (surroundings : Surroundings) (old : Holder)
    (callbacks : Callbacks) (sections : List Section) (loop : Loop) (libraries : Libraries)
    (entries : List PluglibEntry) (exports : List (List Export)) (imports : List Import) :
    (Checked configurator surroundings old ↔ NewCovers configurator surroundings old) ∧
    ((loopConfigStart loop).Covered sections →
      loadConfig callbacks sections loop ≠ .error .unresolved) ∧
    (∀ link, pluglibCheckFunctions libraries entries (imports.map Import.symbol) =
      (pluglibResolveFunctionsInternal link (libraries.exports entries) imports).1) ∧
    (∀ link, (pluglibResolveFunctionsInternal link exports imports).1 =
      imports.all fun wanted => (firstExport exports wanted.symbol).isSome) ∧
    (pluglibResolveFunctionsInternal false exports imports).2 = imports ∧
    ((pluglibResolveFunctionsInternal true exports imports).1 = true →
      (pluglibResolveFunctionsInternal true exports imports).2 =
        imports.map (Import.linked exports)) :=
  ⟨keepPlugin_checked_iff, loadConfig_resolves,
    fun link => (pluglibResolveFunctions_refines libraries entries imports link).1,
    fun link => resolveInternal_fst link exports imports, resolveInternal_check exports imports,
    resolveInternal_link⟩

/-- The plugin sends through its library. -/
def sendingSurroundings (disk : String → PluglibLoad) : Surroundings :=
  ⟨some ⟨1, [⟨"send", none⟩]⟩, disk, [], false, [], true⟩

def sendingSection (disk : String → PluglibLoad) : Section :=
  .plugin "flow.so" [("pluglib", "queue.so")] (sendingSurroundings disk)

/-- The library can send in its first version. -/
def sendingDisk : String → PluglibLoad := fun _ => ⟨1, some ⟨"queue", 1, 1, [⟨"send", none⟩]⟩⟩

def silentDisk : String → PluglibLoad := fun _ => ⟨2, some ⟨"queue", 2, 1, []⟩⟩

/-- The next version can still send. -/
def renewedDisk : String → PluglibLoad := fun _ => ⟨2, some ⟨"queue", 2, 1, [⟨"send", none⟩]⟩⟩

theorem pluglibs_checked_renewed :
    ∃ loop, Loop.empty.run [.reconfigure none plainCallbacks [sendingSection sendingDisk]] =
        .ok loop ∧
      loadConfig plainCallbacks [sendingSection renewedDisk] loop ≠ .error .unresolved := by
  refine ⟨_, rfl, (pluglibs_checked (loopConfigStart .empty) (sendingSurroundings renewedDisk)
    ((loopConfigStart .empty).newHolder ⟨1, []⟩ "flow.so") plainCallbacks
    [sendingSection renewedDisk] _ ⟨[], 0, false⟩ [] [] []).2.1 ⟨?_, fun _ _ => trivial⟩⟩
  intro old found
  cases found
  intro _ _ _ entries libraries installs _
  cases installs
  rfl

/-- The check looks at the old libraries, and the daemon ends when the new ones are linked. -/
theorem pluglibs_unchecked :
    (∃ loop old, Loop.empty.run [.reconfigure none plainCallbacks [sendingSection sendingDisk]] =
        .ok loop ∧ loop.plugins = [old] ∧
      ¬ Checked ((loopConfigStart loop).given [("pluglib", "queue.so")])
        (sendingSurroundings silentDisk) old) ∧
    Loop.empty.run [.reconfigure none plainCallbacks [sendingSection sendingDisk],
      .reconfigure none plainCallbacks [sendingSection silentDisk]] = .error .unresolved := by
  refine ⟨⟨_, _, rfl, rfl, ?_⟩, rfl⟩
  intro checked
  have answer := checked _ rfl _ rfl (cons_ne_nil _ _)
  cases answer

end Ucollect.Loading
