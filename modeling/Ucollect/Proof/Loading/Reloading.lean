import Ucollect.Proof.Loading.Restored
import Ucollect.Proof.Loading.Reconfiguration

/-
The recovery keeps the balance unless a plugin gets the garbage of the crashed one.
-/

namespace Ucollect.Loading
open Library List Option

variable {configurator next : Configurator} {surroundings : Surroundings} {passed : Bool}
  {loop after : Loop} {front back : List Holder} {crashed : Holder} {failure : Bool}
  {callbacks : Callbacks} {around : Nat → Surroundings} {crash : Crash} {index base : Nat}

/-- The library of this hash could not be loaded for the crashed plugin. -/
def Leaves (failure : Bool) (crashed : Holder) (surroundings : Surroundings) (hash : Nat) : Prop :=
  reloads failure crashed = true ∧ surroundings.Links ∧
    ∃ name, firstMissing surroundings.disk (crashed.configTrie "pluglib") = some name ∧
      (surroundings.disk name).hash = hash

/-- No plugin behind the crashed one loads a library that could not be loaded for that one. -/
def Reloadable (failure : Bool) (crashed : Holder) (back : List Holder) (position : Nat)
    (around : Nat → Surroundings) : Prop :=
  ∀ hash, Leaves failure crashed (around position) hash →
    ∀ offset plugin, back[offset]? = some plugin →
      ∀ name ∈ plugin.configTrie "pluglib",
        ((around (position + 1 + offset)).disk name).info.isSome →
          ((around (position + 1 + offset)).disk name).hash ≠ hash

def hiddenPlugins (front : List Holder) (crashed : Holder) (back : List Holder) : List Holder :=
  front.map Holder.marked ++ crashed.hide :: back.map Holder.marked

/-- The recovery has come to a plugin, and the libraries are in balance. -/
structure Rebuilding (failure : Bool) (front : List Holder) (crashed : Holder) (back : List Holder)
    (around : Nat → Surroundings) (base index : Nat) (configurator : Configurator) : Prop where
  replays : ∃ pending done, Replays (hiddenPlugins front crashed back) front.length base index
    pending done configurator
  balanced : Balanced configurator.loop configurator.plugins
  named : Named configurator.loop configurator.plugins
    (((front ++ crashed :: back).take index).map Holder.libname)
  placed : Placed configurator.loop configurator.plugins
  quiet : index ≤ front.length → configurator.pluglibNames = []
  litter : ∀ hash, configurator.loop.libraries.Garbage hash → front.length < index ∧
    configurator.pluglibNames = [] ∧ Leaves failure crashed (around front.length) hash

theorem hidden_other (other : index ≠ front.length) :
    (hiddenPlugins front crashed back)[index]? =
      ((front ++ crashed :: back)[index]?).map Holder.marked := by
  rw [hiddenPlugins]
  by_cases before : index < front.length
  · rw [List.getElem?_append_left (by rw [length_map]; exact before),
      List.getElem?_append_left before, List.getElem?_map]
  · rw [List.getElem?_append_right (by rw [length_map]; omega),
      List.getElem?_append_right (by omega), length_map]
    cases offset : index - front.length with
    | zero => omega
    | succ offset => rw [List.getElem?_cons_succ, List.getElem?_cons_succ, List.getElem?_map]

theorem hidden_crashed :
    (hiddenPlugins front crashed back)[front.length]? = some crashed.hide := by
  rw [hiddenPlugins, List.getElem?_append_right (by rw [length_map]), length_map, Nat.sub_self]
  rfl

theorem hidden_libnames (distinct : ((front ++ crashed :: back).map Holder.libname).Nodup)
    (filled : ∀ plugin ∈ front ++ crashed :: back, plugin.libname ≠ "") :
    ((hiddenPlugins front crashed back).map Holder.libname).Nodup := by
  have others : ∀ plugins : List Holder,
      (plugins.map Holder.marked).map Holder.libname = plugins.map Holder.libname := by
    intro plugins
    rw [List.map_map]
    rfl
  rw [hiddenPlugins, map_append, map_cons, others, others, nodup_middle, nodup_cons]
  rw [map_append, map_cons, nodup_middle, nodup_cons] at distinct
  refine ⟨?_, distinct.2⟩
  intro member
  rw [← map_append] at member
  obtain ⟨plugin, known, empty⟩ := List.mem_map.mp member
  rcases mem_append.mp known with before | behind
  · exact filled plugin (mem_append_left _ before) empty
  · exact filled plugin (mem_append_right _ (mem_cons_of_mem _ behind)) empty

theorem hidden_addresses : (hiddenPlugins front crashed back).map Holder.address =
    (front ++ crashed :: back).map Holder.address := by
  rw [hiddenPlugins, map_append, map_cons, List.map_map, List.map_map, map_append, map_cons]
  rfl

variable {plugin : Holder} {plugins : List Holder}

/-- The names that have been added are those before the plugin. -/
theorem unused_at (distinct : (plugins.map Holder.libname).Nodup)
    (there : plugins[index]? = some plugin) :
    plugin.libname ∉ (plugins.take index).map Holder.libname := by
  intro member
  obtain ⟨other, inside, same⟩ := List.mem_map.mp member
  obtain ⟨position, found⟩ := mem_iff_getElem?.mp inside
  rw [List.getElem?_take] at found
  split at found
  case isTrue before =>
    have equal := position_of_nodup distinct found there same
    omega
  case isFalse => cases found

theorem take_next (there : plugins[index]? = some plugin) :
    ∀ name ∈ plugin.libname :: (plugins.take index).map Holder.libname,
      name ∈ (plugins.take (index + 1)).map Holder.libname := by
  intro name member
  rw [take_add_one, there, toList_some, map_append, map_singleton]
  rcases mem_cons.mp member with rfl | before
  · exact mem_append_right _ mem_cons_self
  · exact mem_append_left _ before

/-- A plugin that has not crashed gets its own libraries. -/
theorem Rebuilding.survivor
    (rebuilding : Rebuilding failure front crashed back around base index configurator)
    (distinct : ((front ++ crashed :: back).map Holder.libname).Nodup)
    (apart : ((front ++ crashed :: back).map Holder.address).Nodup)
    (filled : ∀ plugin ∈ front ++ crashed :: back, plugin.libname ≠ "")
    (reloadable : Reloadable failure crashed back front.length around)
    (other : index ≠ front.length) (there : configurator.loop.plugins[index]? = some plugin)
    (visited : configurator.visit crash (around index) plugin = .ok next) :
    Rebuilding failure front crashed back around base (index + 1) next := by
  obtain ⟨pending, done, replays⟩ := rebuilding.replays
  have marked := (replays.marks index plugin le_rfl there).mpr other
  have added := visit_marked marked visited
  obtain ⟨hidden, hides, fds, mark, shape⟩ := forall₂_getElem? replays.known there
  have hiddenApart : ((hiddenPlugins front crashed back).map Holder.address).Nodup := by
    rw [hidden_addresses]
    exact apart
  have later := replays.survivor (hidden_libnames distinct filled) hiddenApart other there hides
    visited
  rw [hidden_other other] at hides
  obtain ⟨old, stood, rfl⟩ := map_eq_some_iff.mp hides
  have libname : plugin.libname = old.libname := by
    rw [shape]
    rfl
  have options : plugin.configTrie = old.configTrie := by
    rw [shape]
    rfl
  have unused : plugin.libname ∉
      ((front ++ crashed :: back).take index).map Holder.libname := by
    rw [libname]
    exact unused_at distinct stood
  have named : plugin.libname ≠ "" := by
    rw [libname]
    exact filled old (mem_of_getElem? stood)
  have clean : Clean (configurator.configCopy plugin) (around index).disk := by
    intro name member loads left
    obtain ⟨behind, nothing, leaves⟩ := rebuilding.litter _ left
    change name ∈ configurator.pluglibNames ++ plugin.configTrie "pluglib" at member
    rw [nothing, nil_append, options] at member
    rw [List.getElem?_append_right (by omega)] at stood
    obtain ⟨offset, rfl⟩ := Nat.exists_eq_add_of_lt behind
    rw [show front.length + offset + 1 - front.length = offset + 1 by omega,
      List.getElem?_cons_succ] at stood
    have apart := reloadable _ leaves offset old stood name member
    rw [Nat.add_right_comm front.length 1 offset] at apart
    exact apart loads rfl
  obtain ⟨balanced, -, litters⟩ := @Balanced.added (configurator.configCopy plugin) next
    (around index) true plugin.libname _ rebuilding.balanced rebuilding.named unused named clean
    added
  have settled : next.pluglibNames = [] := later.names
  constructor
  case replays => exact ⟨_, _, later⟩
  case balanced => exact balanced
  case named =>
    have all := @Named.added (configurator.configCopy plugin) next (around index) true
      plugin.libname _ rebuilding.named rebuilding.placed unused named added
    apply all.more
    rw [libname]
    exact take_next stood
  case placed =>
    exact @Placed.added (configurator.configCopy plugin) next (around index) true
      plugin.libname rebuilding.placed added
  case quiet => exact fun _ => settled
  case litter =>
    intro hash left
    rcases litters hash left with old | ⟨impossible, -⟩
    · obtain ⟨behind, -, leaves⟩ := rebuilding.litter hash old
      exact ⟨by omega, settled, leaves⟩
    · cases impossible

/-- The counter of failures is not looked at. -/
theorem Balanced.failed {others : List Holder} (balanced : Balanced loop plugins)
    (same : others = plugins ∨ ∃ failed, others = setLastFailed failed plugins) :
    Balanced loop others ∧
      (Placed loop plugins → Placed loop others) ∧
      ∀ used, Named loop plugins used → Named loop others used := by
  rcases same with rfl | ⟨failed, rfl⟩
  · exact ⟨balanced, id, fun _ named => named⟩
  · have members : ∀ {plugins : List Holder}, ∀ plugin ∈ setLastFailed failed plugins,
        ∃ old ∈ plugins, ∃ failed, plugin = { old with failed := failed } := by
      intro plugins
      induction plugins with
      | nil => exact fun plugin member => absurd member not_mem_nil
      | cons first plugins ih =>
        cases plugins with
        | nil =>
          intro plugin member
          exact ⟨first, mem_cons_self, failed, mem_singleton.mp member⟩
        | cons second rest =>
          intro plugin member
          rcases mem_cons.mp member with rfl | inside
          · exact ⟨plugin, mem_cons_self, plugin.failed, rfl⟩
          · obtain ⟨old, known, rest⟩ := ih plugin inside
            exact ⟨old, mem_cons_of_mem _ known, rest⟩
    refine ⟨?_, ?_, ?_⟩
    · refine { balanced with counts := ?counts, news := ?news }
      case counts =>
        apply balanced.counts.congr
        intro lib
        have same := references_congr
          (@setLastFailed_map _ Holder.pluglibs (fun _ _ => rfl) failed plugins) lib
        rw [same]
      case news =>
        intro plugin member
        obtain ⟨old, known, _, rfl⟩ := members plugin member
        have supports := balanced.news old known
        exact ⟨supports.pluglibs, supports.candidates, supports.links⟩
    · intro placed
      constructor
      case apart =>
        rw [map_append, setLastFailed_map fun _ _ => rfl, ← map_append]
        exact placed.apart
      case below =>
        intro plugin member
        rcases mem_append.mp member with old | new
        · exact placed.below plugin (mem_append_left _ old)
        · obtain ⟨old, known, _, rfl⟩ := members plugin new
          exact placed.below old (mem_append_right _ known)
    · intro used named
      constructor
      case unmarked => exact named.unmarked
      case distinct =>
        rw [setLastFailed_map fun _ _ => rfl]
        exact named.distinct
      case listed =>
        intro plugin member
        obtain ⟨old, known, _, rfl⟩ := members plugin member
        exact named.listed old known
      case idle => exact named.idle
      case plain =>
        intro plugin member marked
        obtain ⟨old, known, _, rfl⟩ := members plugin member
        exact named.plain old known marked

/-- The crashed plugin is loaded again, it fails, or it is left out. -/
theorem Rebuilding.reload
    (rebuilding : Rebuilding failure front crashed back around base front.length configurator)
    (distinct : ((front ++ crashed :: back).map Holder.libname).Nodup)
    (filled : ∀ plugin ∈ front ++ crashed :: back, plugin.libname ≠ "")
    (reinit : crash.reinit = reloads failure crashed) (libname : crash.libname = crashed.libname)
    (there : configurator.loop.plugins[front.length]? = some plugin)
    (visited : configurator.visit crash (around front.length) plugin = .ok next) :
    Rebuilding failure front crashed back around base (front.length + 1) next := by
  obtain ⟨pending, done, replays⟩ := rebuilding.replays
  have unmarked : plugin.mark = false := by
    rw [← Bool.not_eq_true, replays.marks front.length plugin le_rfl there]
    exact not_not_intro rfl
  have stood : (front ++ crashed :: back)[front.length]? = some crashed := by
    rw [List.getElem?_append_right le_rfl, Nat.sub_self]
    rfl
  have options : plugin.configTrie = crashed.configTrie := by
    obtain ⟨hidden, hides, fds, mark, shape⟩ := forall₂_getElem? replays.known there
    cases hidden_crashed.symm.trans hides
    rw [shape]
    rfl
  have missing : ∀ plugin ∈ hiddenPlugins front crashed back, plugin.libname ≠ crash.libname := by
    intro plugin member same
    rw [libname] at same
    rw [map_append, map_cons, nodup_middle, nodup_cons, ← map_append]
      at distinct
    rcases mem_append.mp member with before | later
    · obtain ⟨old, known, rfl⟩ := List.mem_map.mp before
      apply distinct.1
      rw [← same]
      exact List.mem_map.mpr ⟨old, mem_append_left back known, rfl⟩
    · rcases mem_cons.mp later with rfl | behind
      · exact filled crashed (mem_append_right _ mem_cons_self) same.symm
      · obtain ⟨old, known, rfl⟩ := List.mem_map.mp behind
        apply distinct.1
        rw [← same]
        exact List.mem_map.mpr ⟨old, mem_append_right front known, rfl⟩
  obtain ⟨new, later, -⟩ := replays.crashed (fun _ => missing) there hidden_crashed visited
  have untouched : ∀ hash, ¬ configurator.loop.libraries.Garbage hash := by
    intro hash left
    exact absurd (rebuilding.litter hash left).1 (Nat.lt_irrefl _)
  have wider : ∀ name ∈ ((front ++ crashed :: back).take front.length).map Holder.libname,
      name ∈ ((front ++ crashed :: back).take (front.length + 1)).map Holder.libname :=
    fun name member => take_next stood name (mem_cons_of_mem _ member)
  cases again : crash.reinit with
  | false =>
    rw [Configurator.visit, if_neg (by simp [unmarked]), if_neg (by simp [again])] at visited
    cases visited
    constructor
    case replays => exact ⟨_, _, later⟩
    case balanced => exact rebuilding.balanced
    case named => exact rebuilding.named.more wider
    case placed => exact rebuilding.placed
    case quiet =>
      intro before
      omega
    case litter => exact fun hash left => absurd left (untouched hash)
  | true =>
    obtain ⟨passed, middle, added, loops, -, waiting, plugins⟩ :=
      visit_reloads unmarked again visited
    have absent : (configurator.configCopy plugin).loop.plugins.find?
        (fun old => old.libname = crash.libname) = none := by
      rw [List.find?_eq_none]
      intro old member
      obtain ⟨known, listed, _, _, rfl⟩ := forall₂_right replays.known member
      rw [decide_eq_true_eq]
      exact missing known listed
    have unused : crash.libname ∉
        ((front ++ crashed :: back).take front.length).map Holder.libname := by
      rw [libname]
      exact unused_at distinct stood
    have real : crash.libname ≠ "" := by
      rw [libname]
      exact filled crashed (mem_append_right _ mem_cons_self)
    have named := @Named.added (configurator.configCopy plugin) middle (around front.length)
      passed crash.libname _ rebuilding.named rebuilding.placed unused real added
    have placed := @Placed.added (configurator.configCopy plugin) middle (around front.length)
      passed crash.libname rebuilding.placed added
    have loaded := added
    rw [Configurator.loopAddPlugin, absent] at loaded
    obtain ⟨balanced, -, litters, links⟩ := @Balanced.loaded (configurator.configCopy plugin)
      middle (around front.length) passed crash.libname rebuilding.balanced
      (fun _ _ _ => untouched _) loaded
    have counted : next.plugins = middle.plugins ∨
        ∃ failed, next.plugins = setLastFailed failed middle.plugins :=
      plugins.imp_right fun same => ⟨_, same⟩
    obtain ⟨nextBalanced, nextPlaced, nextNamed⟩ := balanced.failed counted
    rw [← loops] at nextBalanced nextPlaced nextNamed placed named links
    constructor
    case replays => exact ⟨_, _, later⟩
    case balanced => exact nextBalanced
    case named =>
      apply (nextNamed _ named).more
      rw [libname]
      exact take_next stood
    case placed => exact nextPlaced placed
    case quiet =>
      intro before
      omega
    case litter =>
      intro hash left
      obtain ⟨load, found, able⟩ := (links hash left).resolve_left (untouched hash)
      obtain ⟨-, nothing, -⟩ := loadPlugin_cases found loaded
      refine ⟨Nat.lt_succ_self _, waiting.trans nothing, reinit.symm.trans again, ⟨load, found, able⟩,
        ?_⟩
      obtain ⟨-, name, first, fault⟩ := (litters hash (loops ▸ left)).resolve_left
        (untouched hash)
      refine ⟨name, ?_, fault⟩
      change firstMissing _ (configurator.pluglibNames ++ plugin.configTrie "pluglib") =
        some name at first
      rw [rebuilding.quiet le_rfl, nil_append, options] at first
      exact first

/-- The marked plugins give up nothing at the start of the recovery. -/
theorem filter_hidden :
    (hiddenPlugins front crashed back).filter Holder.mark =
      front.map Holder.marked ++ back.map Holder.marked := by
  have all : ∀ plugins : List Holder,
      (plugins.map Holder.marked).filter Holder.mark = plugins.map Holder.marked := by
    intro plugins
    rw [filter_eq_self]
    intro plugin member
    obtain ⟨old, -, rfl⟩ := List.mem_map.mp member
    rfl
  rw [hiddenPlugins, filter_append, filter_cons_of_neg Bool.false_ne_true, all, all]

theorem mem_hiddenPlugins (member : plugin ∈ hiddenPlugins front crashed back) :
    ∃ old ∈ front ++ crashed :: back, ∃ libname mark,
      plugin = { old with libname := libname, mark := mark } ∧
        (mark = false → libname = "") := by
  rcases mem_append.mp member with before | later
  · obtain ⟨old, known, rfl⟩ := List.mem_map.mp before
    exact ⟨old, mem_append_left _ known, old.libname, true, rfl,
      fun impossible => nomatch impossible⟩
  · rcases mem_cons.mp later with rfl | behind
    · exact ⟨crashed, mem_append_right _ mem_cons_self, "", false, rfl, fun _ => rfl⟩
    · obtain ⟨old, known, rfl⟩ := List.mem_map.mp behind
      exact ⟨old, mem_append_right _ (mem_cons_of_mem _ known), old.libname, true, rfl,
        fun impossible => nomatch impossible⟩

/-- The crashed plugin gives back its references at the start. -/
theorem Loop.Counted.rebuilding (counted : loop.Counted)
    (place : loop.plugins = front ++ crashed :: back) :
    Rebuilding failure front crashed back around loop.libraries.fresh 0
      ((loopConfigStart (loop.dropPlugin crashed)).hidePlugin crashed.address) := by
  have apart := counted.placed.olds
  have hidden : ((loopConfigStart (loop.dropPlugin crashed)).hidePlugin
      crashed.address).loop.plugins = hiddenPlugins front crashed back :=
    hidden_plugins place apart
  have inside : ∀ plugin ∈ front ++ crashed :: back, plugin ∈ loop.plugins :=
    fun plugin member => place ▸ member
  have extended := unlink_extends crashed.pluglibs loop.libraries
  constructor
  case replays =>
    refine ⟨noOptions, [], ?_⟩
    constructor
    case known =>
      rw [hidden]
      exact known_refl _
    case marks =>
      intro later plugin _ there
      rw [hidden] at there
      exact hidden_marks there
    case options => rfl
    case names => rfl
    case done => rfl
    case fresh => exact extended.fresh
  case balanced =>
    constructor
    case counts =>
      have given : loop.libraries.Counts fun lib => references lib (front ++ back) +
          entryCount lib crashed.pluglibs := by
        apply counted.counts.congr
        intro lib
        rw [place, references_append, references_cons, references_append]
        omega
      have unlinked := given.unlink fun entry member =>
        ((counted.supports crashed (inside _
          (mem_append_right _ mem_cons_self))).pluglibs entry member).1
      apply Libraries.Counts.congr unlinked
      intro lib
      rw [hidden, filter_hidden, ← map_append]
      refine Eq.trans (references_congr ?_ lib).symm (Nat.add_zero _).symm
      rw [List.map_map]
      rfl
    case olds =>
      rw [hidden]
      intro plugin member
      obtain ⟨old, known, libname, mark, rfl, -⟩ := mem_hiddenPlugins member
      have supports := (counted.supports old (inside old known)).keeps extended.holds
      exact ⟨supports.pluglibs, supports.candidates, supports.links⟩
    case news => exact fun plugin member => absurd member not_mem_nil
    case placed =>
      rw [hidden, hidden_addresses, ← place]
      exact apart
  case named =>
    constructor
    case unmarked =>
      rw [hidden]
      intro plugin member gone
      obtain ⟨old, known, libname, mark, rfl, empty⟩ := mem_hiddenPlugins member
      exact .inl (empty gone)
    case distinct => exact nodup_nil
    case listed => exact fun plugin member => absurd member not_mem_nil
    case idle =>
      rw [hidden]
      intro plugin member
      obtain ⟨old, known, libname, mark, rfl, -⟩ := mem_hiddenPlugins member
      exact counted.idle old (inside old known)
    case plain => exact fun plugin member => absurd member not_mem_nil
  case placed =>
    constructor
    case apart =>
      rw [hidden]
      show ((hiddenPlugins front crashed back ++ []).map Holder.address).Nodup
      rw [append_nil, hidden_addresses, ← place]
      exact apart
    case below =>
      rw [hidden]
      intro plugin member
      change plugin ∈ hiddenPlugins front crashed back ++ [] at member
      rw [append_nil] at member
      obtain ⟨old, known, libname, mark, rfl, -⟩ := mem_hiddenPlugins member
      exact (counted.placed.below old (mem_append_left _ (inside old known))).trans_le
        extended.fresh
  case quiet => exact fun _ => rfl
  case litter =>
    intro hash left
    exact absurd (extended.garbage hash left) (counted.pure hash)

/-- The holders are visited one after the other. -/
theorem Rebuilding.visits
    (distinct : ((front ++ crashed :: back).map Holder.libname).Nodup)
    (apart : ((front ++ crashed :: back).map Holder.address).Nodup)
    (filled : ∀ plugin ∈ front ++ crashed :: back, plugin.libname ≠ "")
    (reloadable : Reloadable failure crashed back front.length around)
    (reinit : crash.reinit = reloads failure crashed) (libname : crash.libname = crashed.libname)
    {count : Nat}
    (rebuilding : Rebuilding failure front crashed back around base index configurator)
    (visited : configurator.visitAll crash around (List.range' index count) = .ok next) :
    Rebuilding failure front crashed back around base (index + count) next := by
  induction count generalizing index configurator with
  | zero =>
    cases visited
    exact rebuilding
  | succ count ih =>
    rw [List.range'_succ] at visited
    obtain ⟨plugin, middle, there, visit, rest⟩ := visitAll_cons visited
    have later : Rebuilding failure front crashed back around base (index + 1) middle := by
      by_cases here : index = front.length
      · subst here
        exact rebuilding.reload distinct filled reinit libname there visit
      · exact rebuilding.survivor distinct apart filled reloadable here there visit
    rw [← Nat.add_assoc, Nat.add_right_comm]
    exact ih later rest

/-- The recovery ends in balance. -/
theorem recover_counted (counted : loop.Counted) (place : loop.plugins = front ++ crashed :: back)
    (reloadable : Reloadable failure crashed back front.length around)
    (recovered : recover callbacks around failure crashed loop = .ok after) : after.Counted := by
  rw [recover] at recovered
  obtain ⟨next, visited, committed⟩ := bind_returns recovered
  rw [range_eq_range'] at visited
  have filled : ∀ plugin ∈ front ++ crashed :: back, plugin.libname ≠ "" :=
    fun plugin member => counted.filled plugin (place ▸ member)
  have last := (counted.rebuilding place).visits (place ▸ counted.distinct)
    (place ▸ counted.placed.olds) filled reloadable rfl rfl visited
  apply commit_counted last.balanced last.named last.placed _ committed
  intro name member
  obtain ⟨plugin, known, rfl⟩ := List.mem_map.mp member
  exact filled plugin (mem_of_mem_take known)

end Ucollect.Loading
