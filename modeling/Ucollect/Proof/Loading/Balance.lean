import Ucollect.Proof.Loading.References

/-
During a transaction the counters count the entries of the marked plugins and of the new ones.
-/

namespace Ucollect.Loading
open Library List Option Function

variable {configurator next : Configurator} {surroundings : Surroundings} {passed : Bool}
  {libraries after : Libraries} {plugin old : Holder} {lib : Nat}

def references (lib : Nat) (plugins : List Holder) : Nat :=
  entryCount lib (plugins.flatMap Holder.pluglibs)

theorem references_append (lib : Nat) (first second : List Holder) :
    references lib (first ++ second) = references lib first + references lib second := by
  rw [references, flatMap_append, entryCount_append]
  rfl

theorem references_cons (lib : Nat) (plugin : Holder) (plugins : List Holder) :
    references lib (plugin :: plugins) = entryCount lib plugin.pluglibs + references lib plugins := by
  rw [references, flatMap_cons, entryCount_append]
  rfl

theorem references_singleton (lib : Nat) (plugin : Holder) :
    references lib [plugin] = entryCount lib plugin.pluglibs := by
  rw [references, flatMap_singleton]

variable {first second : List Holder}

theorem references_congr (same : second.map Holder.pluglibs = first.map Holder.pluglibs)
    (lib : Nat) :
    references lib second = references lib first := by
  rw [references, references, flatMap_def, flatMap_def, same]

/-- The libraries of the plugin are loaded, and its imports are linked to them. -/
structure Libraries.Supports (libraries : Libraries) (plugin : Holder) : Prop where
  pluglibs : libraries.Serves plugin.pluglibs
  candidates : libraries.Serves plugin.candidatePluglibs
  links : ∀ lib ∈ plugin.links, ∃ entry ∈ plugin.pluglibs, entry.lib = lib

theorem Libraries.Serves.keeps {entries : List PluglibEntry} (serves : libraries.Serves entries)
    (holds : ∀ lib, libraries.Holds lib → after.Holds lib) : after.Serves entries :=
  fun entry member => (serves entry member).imp_right (holds entry.lib)

theorem Libraries.Supports.keeps (supports : libraries.Supports plugin)
    (holds : ∀ lib, libraries.Holds lib → after.Holds lib) : after.Supports plugin :=
  ⟨supports.pluglibs.keeps holds, supports.candidates.keeps holds, supports.links⟩

theorem serves_nil (libraries : Libraries) : libraries.Serves [] :=
  fun _ member => absurd member not_mem_nil

/-- The counters are in balance. -/
structure Balanced (loop : Loop) (plugins : List Holder) : Prop where
  counts : loop.libraries.Counts fun lib =>
    references lib (loop.plugins.filter Holder.mark) + references lib plugins
  olds : ∀ plugin ∈ loop.plugins, loop.libraries.Supports plugin
  news : ∀ plugin ∈ plugins, loop.libraries.Supports plugin
  placed : (loop.plugins.map Holder.address).Nodup

/-- The copies refer to the same libraries as their originals. -/
def Mirrored (loop : Loop) (plugins : List Holder) : Prop :=
  ∀ lib, references lib (loop.plugins.filter fun plugin => !plugin.mark) =
    references lib (plugins.filter fun plugin => !plugin.mark)

theorem adoptPluglibs_installs {new : Holder} {disk : String → PluglibLoad}
    (none : plugin.candidatePluglibs = [])
    (adopts : configurator.adoptPluglibs disk plugin = .ok (passed, next, new)) :
    ∃ names installed, (names = [] ∨ names = configurator.pluglibNames) ∧
      (passed = true → installed = true) ∧
      installAll disk false names [] configurator.loop.libraries =
        .ok (installed, new.candidatePluglibs, next.loop.libraries) := by
  rw [Configurator.adoptPluglibs] at adopts
  split at adopts
  case isTrue =>
    cases adopts
    refine ⟨[], true, .inl rfl, fun _ => rfl, ?_⟩
    rw [installAll, none]
  case isFalse =>
    split at adopts
    case isTrue =>
      cases adopts
      refine ⟨[], true, .inl rfl, fun _ => rfl, ?_⟩
      rw [installAll, none]
    case isFalse =>
      obtain ⟨⟨installed, entries, libraries⟩, installs, returned⟩ := bind_returns adopts
      cases returned
      refine ⟨configurator.pluglibNames, installed, .inr rfl, ?_, installs⟩
      intro both
      exact (Bool.and_eq_true_iff.mp both).1

theorem resolve_links {entries : List PluglibEntry} {imports : List Symbol} {links : List Nat}
    (resolved : pluglibResolveFunctions libraries entries imports = some links) :
    ∀ lib ∈ links, ∃ entry ∈ entries, entry.lib = lib := by
  rw [pluglibResolveFunctions] at resolved
  induction imports generalizing links with
  | nil =>
    cases resolved
    exact fun _ member => absurd member not_mem_nil
  | cons wanted imports ih =>
    rw [mapM_cons] at resolved
    obtain ⟨first, found, rest⟩ := bind_eq_some_iff.mp resolved
    obtain ⟨others, later, shape⟩ := bind_eq_some_iff.mp rest
    cases shape
    obtain ⟨entry, known, rfl⟩ := map_eq_some_iff.mp found
    intro lib member
    rcases mem_cons.mp member with rfl | inside
    · exact ⟨entry, mem_of_find?_eq_some known, rfl⟩
    · exact ih later lib inside

theorem linkPluglibs_installs {new : Holder} {disk : String → PluglibLoad}
    (none : plugin.pluglibs = []) (unlinked : plugin.links = [])
    (links : configurator.linkPluglibs disk plugin = .ok (passed, next, new)) :
    (∃ names installed,
      (names = [] ∨ names = configurator.pluglibNames ∧ plugin.apiVersion ≠ 0) ∧
      (passed = true → installed = true) ∧
      installAll disk true names [] configurator.loop.libraries =
        .ok (installed, new.pluglibs, next.loop.libraries)) ∧
      ∀ lib ∈ new.links, ∃ entry ∈ new.pluglibs, entry.lib = lib := by
  rw [Configurator.linkPluglibs] at links
  split at links
  case isTrue =>
    cases links
    constructor
    · refine ⟨[], true, .inl rfl, fun _ => rfl, ?_⟩
      rw [installAll, none]
    · rw [unlinked]
      exact fun _ member => absurd member not_mem_nil
  case isFalse able =>
    obtain ⟨⟨installed, entries, libraries⟩, installs, returned⟩ := bind_returns links
    cases returned
    constructor
    · refine ⟨configurator.pluglibNames, installed, .inr ⟨rfl, able⟩, ?_, installs⟩
      intro both
      exact (Bool.and_eq_true_iff.mp both).1
    · cases resolved : pluglibResolveFunctions libraries entries plugin.imports with
      | none => exact fun _ member => absurd member not_mem_nil
      | some targets => exact resolve_links resolved

def unmarkAt (address : Nat) (plugins : List Holder) : List Holder :=
  plugins.map fun plugin =>
    if plugin.address = address then { plugin with mark := false } else plugin

theorem takeOver_plugins (configurator : Configurator) (old : Holder) :
    (configurator.takeOver old).loop.plugins = unmarkAt old.address configurator.loop.plugins := rfl

/-- The references of the old plugin move to its copy. -/
theorem references_unmark {plugins : List Holder} (placed : (plugins.map Holder.address).Nodup)
    (member : old ∈ plugins) (marked : old.mark = true) :
    references lib (plugins.filter Holder.mark) =
        references lib ((unmarkAt old.address plugins).filter Holder.mark) +
          entryCount lib old.pluglibs ∧
      references lib ((unmarkAt old.address plugins).filter fun plugin => !plugin.mark) =
        references lib (plugins.filter fun plugin => !plugin.mark) +
          entryCount lib old.pluglibs := by
  induction plugins with
  | nil => cases member
  | cons first rest ih =>
    rw [map_cons, nodup_cons] at placed
    rcases mem_cons.mp member with rfl | inside
    · have others : unmarkAt old.address rest = rest := by
        refine Eq.trans (map_congr_left ?_) (List.map_id rest)
        intro plugin known
        rw [if_neg, id]
        intro same
        exact placed.1 (same ▸ List.mem_map_of_mem known)
      rw [unmarkAt, map_cons, ← unmarkAt, others, if_pos rfl, filter_cons_of_pos marked,
        filter_cons_of_neg (by simp), filter_cons_of_pos (by simp),
        filter_cons_of_neg (by simp [marked]), references_cons, references_cons]
      dsimp only
      constructor
      · omega
      · omega
    · have apart : ¬ first.address = old.address := by
        intro same
        exact placed.1 (same ▸ List.mem_map_of_mem inside)
      obtain ⟨marks, blanks⟩ := ih placed.2 inside
      rw [unmarkAt, map_cons, ← unmarkAt, if_neg apart]
      cases stays : first.mark with
      | true =>
        rw [filter_cons_of_pos stays, filter_cons_of_pos stays,
          filter_cons_of_neg (by simp [stays]), filter_cons_of_neg (by simp [stays]),
          references_cons, references_cons, marks, blanks]
        constructor
        · omega
        · rfl
      | false =>
        rw [filter_cons_of_neg (by simp [stays]), filter_cons_of_neg (by simp [stays]),
          filter_cons_of_pos (by simp [stays]), filter_cons_of_pos (by simp [stays]),
          references_cons, references_cons, marks, blanks]
        constructor
        · rfl
        · omega

theorem references_alike {first second : List Holder} (alike : List.Forall₂ Holder.Alike first second)
    (keep : Bool → Bool) :
    references lib (second.filter fun plugin => keep plugin.mark) =
      references lib (first.filter fun plugin => keep plugin.mark) := by
  induction alike with
  | nil => rfl
  | cons holds _ ih =>
    obtain ⟨fds, rfl⟩ := holds
    rw [filter_cons, filter_cons]
    dsimp only
    split
    · rw [references_cons, references_cons, ih]
    · exact ih

theorem supports_alike (alike : List.Forall₂ Holder.Alike first second)
    (supports : ∀ plugin ∈ first, libraries.Supports plugin) :
    ∀ plugin ∈ second, libraries.Supports plugin := by
  intro plugin member
  obtain ⟨before, known, fds, rfl⟩ := forall₂_right alike member
  have stands := supports before known
  exact ⟨stands.pluglibs, stands.candidates, stands.links⟩

/-- A field of the plugins besides their descriptors stays. -/
theorem map_alike {T : Type} {field : Holder → T}
    (plain : ∀ holder fds, field { holder with fds := fds } = field holder)
    (alike : List.Forall₂ Holder.Alike first second) :
    second.map field = first.map field := by
  induction alike with
  | nil => rfl
  | cons holds _ ih =>
    obtain ⟨fds, rfl⟩ := holds
    rw [map_cons, map_cons, plain, ih]

/-- Only a library that fails leaves garbage of its hash. -/
def Litters (configurator next : Configurator) (disk : String → PluglibLoad) (passed : Bool) : Prop :=
  ∀ hash, next.loop.libraries.Garbage hash → configurator.loop.libraries.Garbage hash ∨
    passed = false ∧ ∃ name, firstMissing disk configurator.pluglibNames = some name ∧
      (disk name).hash = hash

/-- No library that is loaded has the hash of one that was not. -/
def Clean (configurator : Configurator) (disk : String → PluglibLoad) : Prop :=
  ∀ name ∈ configurator.pluglibNames, (disk name).info.isSome →
    ¬ configurator.loop.libraries.Garbage (disk name).hash

/-- A field of the plugins besides their marks stays. -/
theorem map_takeOver {T : Type} {field : Holder → T}
    (plain : ∀ holder mark, field { holder with mark := mark } = field holder)
    (configurator : Configurator) (old : Holder) :
    (configurator.takeOver old).loop.plugins.map field = configurator.loop.plugins.map field := by
  show (configurator.loop.plugins.map _).map field = _
  rw [List.map_map]
  apply map_congr_left
  intro plugin _
  rw [comp_apply]
  split
  · exact plain plugin _
  · rfl

/-- A kept plugin installs its new libraries besides its old ones. -/
theorem keepPlugin_installs (kept : configurator.keepPlugin surroundings old = .ok (passed, next)) :
    ∃ entries fds middle names installed,
      next.plugins = configurator.plugins ++ [(configurator.copyHolder old).fitted entries fds] ∧
      (names = [] ∨ names = configurator.pluglibNames) ∧ (passed = true → installed = true) ∧
      installAll surroundings.disk false names [] (configurator.takeOver old).loop.libraries =
        .ok (installed, entries, middle) ∧ middle.Grows next.loop.libraries := by
  obtain ⟨candidates, fds, plugins, -⟩ := keepPlugin_cases kept
  rw [Configurator.keepPlugin] at kept
  obtain ⟨⟨adopted, copied, new⟩, adopts, returned⟩ := bind_returns kept
  obtain ⟨names, installed, inner, fails, installs⟩ := adoptPluglibs_installs rfl adopts
  obtain ⟨entries, rfl, copiedPlugins, -⟩ := adoptPluglibs_cases adopts
  refine ⟨candidates, fds, copied.loop.libraries, names, installed, plugins, inner, ?_⟩
  cases adopted with
  | true =>
    obtain rfl := congrArg Prod.snd (Except.ok.inj returned)
    obtain ⟨others, appended, -⟩ := configCheck_cases copied surroundings
      { configurator.copyHolder old with candidatePluglibs := entries }
    rw [appended, copiedPlugins] at plugins
    have equal := append_cancel_left plugins
    obtain rfl : entries = candidates :=
      congrArg Holder.candidatePluglibs (List.cons.inj equal).1
    exact ⟨fun _ => fails rfl, installs, configCheck_grows _ _ _⟩
  | false =>
    cases returned
    dsimp only at plugins
    rw [copiedPlugins] at plugins
    have equal := append_cancel_left plugins
    obtain rfl : entries = candidates :=
      congrArg Holder.candidatePluglibs (List.cons.inj equal).1
    exact ⟨fun impossible => absurd impossible Bool.false_ne_true, installs, grows_refl _⟩

/-- A marked plugin may be kept. -/
theorem Balanced.kept (balanced : Balanced configurator.loop configurator.plugins)
    (clean : Clean configurator surroundings.disk)
    (member : old ∈ configurator.loop.plugins) (marked : old.mark = true)
    (kept : configurator.keepPlugin surroundings old = .ok (passed, next)) :
    Balanced next.loop next.plugins ∧ (Mirrored configurator.loop configurator.plugins → Mirrored next.loop next.plugins) ∧
      Litters configurator next surroundings.disk passed := by
  obtain ⟨-, -, -, -, -, alike⟩ := keepPlugin_cases kept
  obtain ⟨entries, fds, middle, names, installed, plugins, inner, fails, installs, grows⟩ :=
    keepPlugin_installs kept
  have start : (configurator.takeOver old).loop.libraries.Counts fun lib =>
      references lib (configurator.loop.plugins.filter Holder.mark) +
        references lib configurator.plugins :=
    balanced.counts.grow rfl rfl (Nat.le_succ _)
  have cleaner : ∀ name ∈ names, (surroundings.disk name).info.isSome →
      ¬ (configurator.takeOver old).loop.libraries.Garbage (surroundings.disk name).hash := by
    rcases inner with rfl | rfl
    · exact fun name impossible => absurd impossible not_mem_nil
    · exact clean
  obtain ⟨serving, holds, fresh, garbage, more, shape, counts⟩ :=
    installAll_counts start cleaner (serves_nil _) installs
  have later := extends_grow grows.pluglibs grows.fresh
  have stays : ∀ lib, configurator.loop.libraries.Holds lib → next.loop.libraries.Holds lib :=
    fun lib there => later.holds lib (holds lib there)
  have unmark := fun lib => @references_unmark old lib _ balanced.placed member marked
  refine ⟨⟨?_, ?_, ?_, ?_⟩, ?_, ?_⟩
  · apply (counts.grow grows.pluglibs grows.wrapped grows.fresh).congr
    intro lib
    have marks := @references_alike lib _ _ alike id
    rw [plugins, references_append, references_singleton]
    simp only [id] at marks
    rw [show (fun plugin : Holder => plugin.mark) = Holder.mark from rfl] at marks
    rw [marks, takeOver_plugins, (unmark lib).1, if_neg (by decide)]
    show _ = _ + (references lib configurator.plugins + entryCount lib old.pluglibs)
    omega
  · apply supports_alike alike
    intro plugin known
    obtain ⟨before, there, rfl⟩ := List.mem_map.mp known
    have supports := (balanced.olds before there).keeps stays
    split
    · exact ⟨supports.pluglibs, supports.candidates, supports.links⟩
    · exact supports
  · rw [plugins]
    intro plugin known
    rcases mem_append.mp known with before | new
    · exact (balanced.news plugin before).keeps stays
    · rw [mem_singleton.mp new]
      have supports := (balanced.olds old member).keeps stays
      exact ⟨supports.pluglibs, serving.keeps later.holds, supports.links⟩
  · rw [map_alike (fun _ _ => rfl) alike, map_takeOver fun _ _ => rfl]
    exact balanced.placed
  · intro mirrored lib
    have blanks := @references_alike lib _ _ alike not
    rw [plugins, filter_append, references_append]
    show references lib (next.loop.plugins.filter fun plugin => not plugin.mark) = _
    rw [blanks, ← mirrored lib, takeOver_plugins, (unmark lib).2]
    exact congrArg _ (references_singleton lib _).symm
  · intro hash left
    rcases garbage hash (later.garbage hash left) with old | ⟨failed, name, known, fault⟩
    · exact .inl old
    · rcases inner with rfl | rfl
      · cases known
      · refine .inr ⟨?_, name, known, fault⟩
        rw [← Bool.not_eq_true]
        intro passes
        rw [fails passes] at failed
        cases failed

/-- What a failed plugin has installed is taken back. What a good one has installed is counted. -/
theorem loadPlugin_installs {load : PluginLoad} {libname : String}
    (found : surroundings.plugin = some load)
    (loaded : configurator.loadPlugin surroundings libname = .ok (passed, next)) :
    ∃ entries middle names installed,
      (names = [] ∨ names = configurator.pluglibNames ∧ load.apiVersion ≠ 0) ∧
      (passed = true → installed = true) ∧
      installAll surroundings.disk true names [] configurator.useOptions.loop.libraries =
        .ok (installed, entries, middle) ∧
      List.Forall₂ Holder.Alike configurator.loop.plugins next.loop.plugins ∧
      ((passed = false ∧ next.plugins = configurator.plugins ∧ ∃ grown, middle.Grows grown ∧
          next.loop.libraries = pluglibsUnlink entries grown) ∨
        ∃ targets fds, next.plugins = configurator.plugins ++
            [(configurator.newHolder load libname).linked entries targets fds] ∧
          (∀ lib ∈ targets, ∃ entry ∈ entries, entry.lib = lib) ∧
          middle.Grows next.loop.libraries) := by
  obtain ⟨-, -, alike, -⟩ := loadPlugin_cases found loaded
  rw [Configurator.loadPlugin, found] at loaded
  obtain ⟨⟨linked, started, new⟩, links, returned⟩ := bind_returns loaded
  obtain ⟨⟨names, installed, inner, fails, installs⟩, linkage⟩ :=
    linkPluglibs_installs rfl rfl links
  obtain ⟨entries, targets, rfl, plugins, -⟩ := linkPluglibs_cases links
  refine ⟨entries, started.loop.libraries, names, installed, inner, ?_, installs, alike, ?_⟩
  · intro passes
    apply fails
    cases linked with
    | true => rfl
    | false =>
      cases returned
      cases passes
  · cases linked with
    | false =>
      cases returned
      exact .inl ⟨rfl, plugins, _, grows_refl _, rfl⟩
    | true =>
      obtain ⟨-, fds, shape⟩ := registerAll_plugins started.loop
        { configurator.newHolder load libname with pluglibs := entries, links := targets }
        surroundings.init
      have grown := registerAll_grows started.loop
        { configurator.newHolder load libname with pluglibs := entries, links := targets }
        surroundings.init
      have result := Except.ok.inj returned
      rw [Configurator.initPlugin] at result
      dsimp only at result
      rw [shape] at result
      split at result
      case isTrue =>
        cases result
        exact .inl ⟨rfl, plugins, _, grown, rfl⟩
      case isFalse =>
        obtain ⟨fds, appended, -⟩ := configCheck_cases
          { started with loop := (started.loop.registerAll
            { configurator.newHolder load libname with pluglibs := entries, links := targets }
            surroundings.init).1 } surroundings
          { configurator.newHolder load libname with
            pluglibs := entries
            links := targets
            fds := fds }
        obtain rfl := congrArg Prod.snd result
        refine .inr ⟨targets, fds, ?_, linkage, grown.trans (configCheck_grows
          { started with loop := (started.loop.registerAll _ _).1 } _ _)⟩
        rw [appended]
        dsimp only
        rw [plugins]
        rfl

/-- The plugin is there, and it may use libraries. -/
def Surroundings.Links (surroundings : Surroundings) : Prop :=
  ∃ load, surroundings.plugin = some load ∧ load.apiVersion ≠ 0

/-- Another plugin may be loaded. -/
theorem Balanced.loaded {libname : String}
    (balanced : Balanced configurator.loop configurator.plugins)
    (clean : Clean configurator surroundings.disk)
    (loaded : configurator.loadPlugin surroundings libname = .ok (passed, next)) :
    Balanced next.loop next.plugins ∧
      (Mirrored configurator.loop configurator.plugins → Mirrored next.loop next.plugins) ∧
      Litters configurator next surroundings.disk passed ∧
      ∀ hash, next.loop.libraries.Garbage hash →
        configurator.loop.libraries.Garbage hash ∨ surroundings.Links := by
  cases found : surroundings.plugin with
  | none =>
    rw [Configurator.loadPlugin, found] at loaded
    cases loaded
    exact ⟨balanced, id, fun _ garbage => .inl garbage, fun _ garbage => .inl garbage⟩
  | some load =>
    obtain ⟨entries, middle, names, installed, inner, fails, installs, alike, which⟩ :=
      loadPlugin_installs found loaded
    have start : configurator.useOptions.loop.libraries.Counts fun lib =>
        references lib (configurator.loop.plugins.filter Holder.mark) +
          references lib configurator.plugins :=
      balanced.counts.grow rfl rfl (Nat.le_add_right _ 2)
    have cleaner : ∀ name ∈ names, (surroundings.disk name).info.isSome →
        ¬ configurator.useOptions.loop.libraries.Garbage (surroundings.disk name).hash := by
      rcases inner with rfl | ⟨rfl, -⟩
      · exact fun name impossible => absurd impossible not_mem_nil
      · exact clean
    obtain ⟨serving, holds, fresh, garbage, more, rfl, counts⟩ :=
      installAll_counts start cleaner (serves_nil _) installs
    have marks : ∀ lib, references lib (next.loop.plugins.filter Holder.mark) =
        references lib (configurator.loop.plugins.filter Holder.mark) :=
      fun lib => @references_alike lib _ _ alike id
    have blanks : ∀ lib, references lib (next.loop.plugins.filter fun plugin => !plugin.mark) =
        references lib (configurator.loop.plugins.filter fun plugin => !plugin.mark) :=
      fun lib => @references_alike lib _ _ alike not
    have extended : middle.Extends next.loop.libraries := by
      rcases which with ⟨-, -, grown, grows, same⟩ | ⟨-, -, -, -, grows⟩
      · rw [same]
        exact (extends_grow grows.pluglibs grows.fresh).trans (unlink_extends _ _)
      · exact extends_grow grows.pluglibs grows.fresh
    have stays : ∀ lib, configurator.loop.libraries.Holds lib → next.loop.libraries.Holds lib :=
      fun lib there => extended.holds lib (holds lib there)
    have olds : ∀ plugin ∈ next.loop.plugins, next.loop.libraries.Supports plugin :=
      supports_alike alike fun plugin known => (balanced.olds plugin known).keeps stays
    have placed : (next.loop.plugins.map Holder.address).Nodup := by
      rw [map_alike (fun _ _ => rfl) alike]
      exact balanced.placed
    have litters : Litters configurator next surroundings.disk passed := by
      intro hash left
      rcases garbage hash (extended.garbage hash left) with old | ⟨failed, name, known, fault⟩
      · exact .inl old
      · rcases inner with rfl | ⟨rfl, able⟩
        · cases known
        · refine .inr ⟨?_, name, known, fault⟩
          rw [← Bool.not_eq_true]
          intro passes
          rw [fails passes] at failed
          cases failed
    have able : ∀ hash, next.loop.libraries.Garbage hash →
        configurator.loop.libraries.Garbage hash ∨ surroundings.Links := by
      intro hash left
      rcases garbage hash (extended.garbage hash left) with old | ⟨-, name, known, -⟩
      · exact .inl old
      · rcases inner with rfl | ⟨-, able⟩
        · cases known
        · exact .inr ⟨load, found, able⟩
    rcases which with ⟨-, plugins, grown, grows, same⟩ | ⟨targets, fds, plugins, links, grows⟩
    · refine ⟨⟨?_, olds, ?_, placed⟩, ?_, litters, able⟩
      · rw [same, plugins]
        apply Libraries.Counts.unlink _ fun entry member => (serving entry member).1
        apply (counts.grow grows.pluglibs grows.wrapped grows.fresh).congr
        intro lib
        rw [marks, if_pos rfl]
      · rw [plugins]
        exact fun plugin known => (balanced.news plugin known).keeps stays
      · intro mirrored lib
        rw [blanks, plugins]
        exact mirrored lib
    · refine ⟨⟨?_, olds, ?_, placed⟩, ?_, litters, able⟩
      · apply (counts.grow grows.pluglibs grows.wrapped grows.fresh).congr
        intro lib
        rw [marks, plugins, references_append, references_singleton, if_pos rfl]
        exact Nat.add_assoc _ _ _
      · rw [plugins]
        intro plugin known
        rcases mem_append.mp known with before | new
        · exact (balanced.news plugin before).keeps stays
        · rw [mem_singleton.mp new]
          exact ⟨serving.keeps extended.holds, serves_nil _, links⟩
      · intro mirrored lib
        rw [blanks, plugins, filter_append, references_append, mirrored lib]
        rfl

end Ucollect.Loading
