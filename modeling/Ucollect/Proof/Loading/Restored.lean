import Ucollect.Proof.Loading.Recovery

/-
The recovery keeps the configuration of all the plugins if nothing is left behind.
-/

namespace Ucollect.Loading
open Library List Option Function

variable {loop after : Loop} {front back : List Holder} {crashed : Holder} {failure : Bool}
  {callbacks : Callbacks} {around : Nat → Surroundings}

/-- The loaded plugins are apart from each other in the memory, and their libraries have names. -/
structure Loop.Loaded (loop : Loop) : Prop where
  placed : (loop.plugins.map Holder.address).Nodup
  separate : (loop.plugins.map Holder.library).Nodup
  named : ∀ plugin ∈ loop.plugins, plugin.libname ≠ ""
  fresh : ∀ plugin ∈ loop.plugins, plugin.library < loop.libraries.fresh

/-- The others have what they had. The crashed plugin is gone, or it is loaded from its options. -/
def Restored (front : List Holder) (crashed : Holder) (back : List Holder) (after : Loop) : Prop :=
  ∃ new : Option Record,
    after.plugins.map Holder.record =
      front.map Holder.record ++ new.toList ++ back.map Holder.record ∧
    ∀ record, new = some record → record.libname = crashed.libname ∧
      record.options = crashed.configTrie ∧ record.pluglibs = crashed.configTrie "pluglib" ∧
      ∀ plugin ∈ front ++ crashed :: back, plugin.library ≠ record.library

/-- A plugin that asks for it is loaded again, and so is one that has not failed too often. -/
def reloads (failure : Bool) (crashed : Holder) : Bool :=
  !failure || crashed.failed < failCount

/-- Nothing is left behind when the library of the crashed plugin is loaded, when the plugin is the
last one, or when it has no options. The names of the others belong to them only, and their options
name the libraries that they have. -/
structure Recovers (front : List Holder) (crashed : Holder) (back : List Holder) (failure : Bool)
    (surroundings : Surroundings) : Prop where
  distinct : ((front ++ back).map Holder.libname).Nodup
  alone : reloads failure crashed = true → ∀ plugin ∈ front ++ back,
    plugin.libname ≠ crashed.libname
  consumed : reloads failure crashed = true ∧ surroundings.plugin.isSome ∨ back = [] ∨
    crashed.configTrie = noOptions
  settled : ∀ plugin ∈ front ++ back, plugin.configTrie "pluglib" = [] ∨
    plugin.configTrie "pluglib" = plugin.pluglibs.map PluglibEntry.name

def Holder.marked (plugin : Holder) : Holder := { plugin with mark := true }

def Holder.hide (plugin : Holder) : Holder := { plugin with mark := false, libname := "" }

theorem hidden_plugins (place : loop.plugins = front ++ crashed :: back)
    (placed : (loop.plugins.map Holder.address).Nodup) :
    ((loopConfigStart (loop.dropPlugin crashed)).hidePlugin crashed.address).loop.plugins =
      front.map Holder.marked ++ crashed.hide :: back.map Holder.marked := by
  rw [place, map_append, map_cons, nodup_append, nodup_cons] at placed
  obtain ⟨-, ⟨notBack, -⟩, notFront⟩ := placed
  show ((loop.plugins.map _).map _ : List Holder) = _
  rw [place, List.map_map, map_append, map_cons]
  congr 1
  · apply map_congr_left
    intro plugin member
    apply if_neg
    exact notFront _ (List.mem_map_of_mem member) _ mem_cons_self
  · congr 1
    · exact if_pos rfl
    · apply map_congr_left
      intro plugin member
      apply if_neg
      intro same
      have inside : plugin.address ∈ back.map Holder.address := List.mem_map_of_mem member
      exact notBack (same ▸ inside)

/-- The recovery visits the hidden plugins, and then it commits. -/
theorem recover_visits (loaded : loop.Loaded) (place : loop.plugins = front ++ crashed :: back)
    (recovered : recover callbacks around failure crashed loop = .ok after) :
    ∃ (crash : Crash) (start next : Configurator), crash.reinit = reloads failure crashed ∧ crash.libname = crashed.libname ∧
      start.loop.plugins = front.map Holder.marked ++ crashed.hide :: back.map Holder.marked ∧
      start.loop.libraries.fresh = loop.libraries.fresh ∧ start.plugins = [] ∧
      start.configTrie = noOptions ∧ start.pluglibNames = [] ∧
      start.visitAll crash around (List.range
        (front.map Holder.marked ++ crashed.hide :: back.map Holder.marked).length) = .ok next ∧
      after.plugins.map Holder.record = next.plugins.map Holder.promise := by
  rw [recover] at recovered
  obtain ⟨next, visited, committed⟩ := bind_returns recovered
  have length : loop.plugins.length =
      (front.map Holder.marked ++ crashed.hide :: back.map Holder.marked).length := by
    rw [place]
    simp
  rw [length] at visited
  let crash : Crash := ⟨reloads failure crashed, crashed.libname,
    if failure then crashed.failed else 0⟩
  exact ⟨crash, _, next, rfl, rfl, hidden_plugins place loaded.placed, pluglibsUnlink_fresh _ _,
    rfl, rfl, rfl, visited, loopConfigCommit_record committed⟩

theorem replayAll_marked (pending : Options) (plugins : List Holder) :
    replayAll pending (plugins.map Holder.marked) = replayAll pending plugins := by
  induction plugins generalizing pending with
  | nil => rfl
  | cons plugin plugins ih =>
    rw [map_cons, replayAll, replayAll, ih]
    rfl

variable {plugin : Holder}

/-- These are the marks at the start of the recovery. -/
theorem hidden_marks {position : Nat}
    (there : (front.map Holder.marked ++ crashed.hide :: back.map Holder.marked)[position]? =
      some plugin) : plugin.mark = true ↔ position ≠ front.length := by
  by_cases before : position < front.length
  · rw [List.getElem?_append_left (by rw [length_map]; exact before), List.getElem?_map] at there
    obtain ⟨old, -, rfl⟩ := map_eq_some_iff.mp there
    exact ⟨fun _ => by omega, fun _ => rfl⟩
  · rw [List.getElem?_append_right (by rw [length_map]; omega), length_map] at there
    cases offset : position - front.length with
    | zero =>
      rw [offset] at there
      cases there
      constructor
      · intro impossible
        cases impossible
      · intro other
        omega
    | succ offset =>
      rw [offset, List.getElem?_cons_succ, List.getElem?_map] at there
      obtain ⟨old, -, rfl⟩ := map_eq_some_iff.mp there
      exact ⟨fun _ => by omega, fun _ => rfl⟩

theorem known_refl (plugins : List Holder) : List.Forall₂ Holder.Known plugins plugins :=
  forall₂_same.mpr fun plugin _ => ⟨plugin.fds, plugin.mark, rfl⟩

/-- With distinct names, this is what the recovery leaves. -/
theorem recover_records (loaded : loop.Loaded) (place : loop.plugins = front ++ crashed :: back)
    (distinct : ((front ++ back).map Holder.libname).Nodup)
    (alone : reloads failure crashed = true → ∀ plugin ∈ front ++ back,
      plugin.libname ≠ crashed.libname)
    (recovered : recover callbacks around failure crashed loop = .ok after) :
    ∃ new : Option Record,
      after.plugins.map Holder.record = front.map (Holder.replayed noOptions) ++ new.toList ++
        replayAll (if reloads failure crashed = true ∧ (around front.length).plugin.isSome then
          noOptions else crashed.configTrie) back ∧
      ∀ record, new = some record → record.libname = crashed.libname ∧
        record.options = crashed.configTrie ∧ record.pluglibs = crashed.configTrie "pluglib" ∧
        ∀ plugin ∈ front ++ crashed :: back, plugin.library ≠ record.library := by
  obtain ⟨crash, start, next, again, name, hidden, fresh, plugins, options, names, visited, same⟩ :=
    recover_visits loaded place recovered
  have addresses : ((front.map Holder.marked ++ crashed.hide :: back.map Holder.marked).map
      Holder.address).Nodup := by
    have placed := loaded.placed
    rw [place] at placed
    simpa [comp_def, Holder.marked, Holder.hide] using placed
  have named : ∀ plugin ∈ front ++ crashed :: back, plugin.libname ≠ "" := place ▸ loaded.named
  have libnames : ((front.map Holder.marked ++ crashed.hide :: back.map Holder.marked).map
      Holder.libname).Nodup := by
    have hides : (front.map Holder.marked ++ crashed.hide :: back.map Holder.marked).map
        Holder.libname = front.map Holder.libname ++ "" :: back.map Holder.libname := by
      simp [comp_def, Holder.marked, Holder.hide]
    rw [hides, nodup_middle, nodup_cons, ← map_append]
    refine ⟨?_, distinct⟩
    intro empty
    obtain ⟨plugin, member, none⟩ := List.mem_map.mp empty
    apply named plugin _ none
    rw [mem_append] at member ⊢
    exact member.imp_right (mem_cons_of_mem _)
  have missing : crash.reinit = true → ∀ plugin ∈ front.map Holder.marked ++
      crashed.hide :: back.map Holder.marked, plugin.libname ≠ crash.libname := by
    intro reload plugin member
    rw [again] at reload
    rw [name]
    rcases mem_append.mp member with inFront | inBack
    · obtain ⟨old, listed, rfl⟩ := List.mem_map.mp inFront
      exact alone reload old (mem_append_left _ listed)
    · rcases mem_cons.mp inBack with rfl | inBack
      · exact (named crashed (by simp)).symm
      · obtain ⟨old, listed, rfl⟩ := List.mem_map.mp inBack
        exact alone reload old (mem_append_right _ listed)
  have replays : Replays (front.map Holder.marked ++ crashed.hide :: back.map Holder.marked)
      (front.map Holder.marked).length loop.libraries.fresh 0 noOptions [] start := by
    constructor
    case known =>
      rw [hidden]
      exact known_refl _
    case marks =>
      intro later plugin _ there
      rw [hidden] at there
      rw [length_map]
      exact hidden_marks there
    case options => exact options
    case names => exact names
    case done => rw [plugins, map_nil]
    case fresh => exact fresh.ge
  obtain ⟨new, records, loads⟩ := replays.all libnames addresses missing visited
  refine ⟨new, ?_, ?_⟩
  · rw [same, records, replayAll_marked, length_map, List.map_map, Crash.leftover, again]
    rfl
  · intro record found
    obtain ⟨libname, options, pluglibs, above⟩ := loads record found
    refine ⟨libname.trans name, options, pluglibs, ?_⟩
    intro plugin member
    have below := loaded.fresh plugin (place ▸ member)
    omega

theorem Loop.Loaded.library_inj (loaded : loop.Loaded) {first second : Holder}
    (one : first ∈ loop.plugins) (two : second ∈ loop.plugins)
    (same : first.library = second.library) : first = second :=
  inj_on_of_nodup_map loaded.separate one two same

theorem mem_hidden {plugin : Holder} (member : plugin ∈ front ++ back) :
    plugin.marked ∈ front.map Holder.marked ++ crashed.hide :: back.map Holder.marked := by
  rcases mem_append.mp member with inFront | inBack
  · exact mem_append_left _ (List.mem_map_of_mem inFront)
  · exact mem_append_right _ (mem_cons_of_mem _ (List.mem_map_of_mem inBack))

/-- In the end every library is there once. -/
theorem Restored.libraries (loaded : loop.Loaded) (place : loop.plugins = front ++ crashed :: back)
    (restored : Restored front crashed back after) :
    (after.plugins.map Holder.library).Nodup ∧
      ∀ plugin ∈ front ++ back, plugin.library ∈ after.plugins.map Holder.library := by
  obtain ⟨new, records, loads⟩ := restored
  have libraries := congrArg (List.map Record.library) records
  have parts : after.plugins.map Holder.library = front.map Holder.library ++
      new.toList.map Record.library ++ back.map Holder.library := by
    simpa [comp_def, Holder.record] using libraries
  have separate := loaded.separate
  rw [place, map_append, map_cons, nodup_middle, nodup_cons] at separate
  rw [parts]
  constructor
  · cases new with
    | none => simpa using separate.2
    | some record =>
      obtain ⟨-, -, -, other⟩ := loads record rfl
      show (front.map Holder.library ++ [record.library] ++ back.map Holder.library).Nodup
      rw [append_assoc, singleton_append, nodup_middle, nodup_cons]
      refine ⟨?_, separate.2⟩
      rw [← map_append]
      intro inside
      obtain ⟨plugin, member, same⟩ := List.mem_map.mp inside
      apply other plugin _ same
      rw [mem_append] at member ⊢
      exact member.imp_right (mem_cons_of_mem _)
  · intro plugin member
    rcases mem_append.mp member with inFront | inBack
    · exact mem_append_left _ (mem_append_left _ (List.mem_map_of_mem inFront))
    · exact mem_append_right _ (List.mem_map_of_mem inBack)

/-- The plugins come out right only if each of them is found by its name. -/
theorem Restored.distinct (loaded : loop.Loaded) (place : loop.plugins = front ++ crashed :: back)
    (recovered : recover callbacks around failure crashed loop = .ok after)
    (restored : Restored front crashed back after) :
    ((front ++ back).map Holder.libname).Nodup ∧
      (reloads failure crashed = true → ∀ plugin ∈ front ++ back,
        plugin.libname ≠ crashed.libname) := by
  obtain ⟨crash, start, next, again, name, hidden, fresh, plugins, -, -, visited, same⟩ :=
    recover_visits loaded place recovered
  obtain ⟨once, present⟩ := restored.libraries loaded place
  have libraries : next.plugins.map Holder.library = after.plugins.map Holder.library := by
    have read := congrArg (List.map Record.library) same
    rw [List.map_map, List.map_map] at read
    exact read.symm
  rw [← libraries] at once present
  have copies : Copies (front.map Holder.marked ++ crashed.hide :: back.map Holder.marked)
      loop.libraries.fresh front.length start := by
    constructor
    case known =>
      rw [hidden]
      exact known_refl _
    case unmarked =>
      intro plugin there
      rw [hidden] at there
      rw [← Bool.not_eq_true, hidden_marks there]
      exact not_not_intro rfl
    case fresh => exact fresh.ge
    case firsts =>
      intro library member
      rw [plugins] at member
      cases member
  have inside : ∀ plugin ∈ front ++ back, plugin ∈ loop.plugins := by
    intro plugin member
    rw [place]
    rw [mem_append] at member ⊢
    exact member.imp_right (mem_cons_of_mem _)
  have hiddenLibraries : ((front.map Holder.marked ++ crashed.hide :: back.map Holder.marked).map
      Holder.library).Nodup := by
    have separate := loaded.separate
    rw [place] at separate
    simpa [comp_def, Holder.marked, Holder.hide] using separate
  have first : ∀ plugin ∈ front ++ back,
      (front.map Holder.marked ++ crashed.hide :: back.map Holder.marked).find?
        (fun other => other.libname = plugin.libname) = some plugin.marked := by
    intro plugin member
    rcases (copies.all visited).firsts _ (present plugin member) with above | ⟨old, library, found⟩
    · have below := loaded.fresh plugin (inside plugin member)
      omega
    · have equal := inj_on_of_nodup_map hiddenLibraries (mem_of_find?_eq_some found)
        (mem_hidden member) library
      rw [equal] at found
      exact found
  constructor
  · rw [nodup_map_iff_inj_on]
    · intro one oneMember two twoMember equal
      have marked : one.marked = two.marked := by
        have found := first one oneMember
        rw [equal, first two twoMember] at found
        exact (Option.some.inj found).symm
      exact loaded.library_inj (inside one oneMember) (inside two twoMember)
        (congrArg (fun plugin : Holder => plugin.library) marked :)
    · have placed := loaded.placed
      rw [place, map_append, map_cons, nodup_middle, nodup_cons] at placed
      apply Nodup.of_map Holder.address
      rw [map_append]
      exact placed.2
  · intro reload plugin member equal
    obtain ⟨twinAt, place⟩ := mem_iff_getElem?.mp (@mem_hidden front back crashed plugin member)
    have apart : twinAt ≠ front.length := (hidden_marks place).mp rfl
    have found := first plugin member
    rw [equal, ← name] at found
    obtain ⟨more, appended, enough⟩ := copies.twins (again.trans reload) found place apart visited
    rw [plugins, map_nil, nil_append] at appended
    rw [appended] at once
    have few := nodup_iff_count_le_one.mp once plugin.marked.library
    have some := (List.getElem?_eq_some_iff.mp place).1
    have within : front.length <
        (front.map Holder.marked ++ crashed.hide :: back.map Holder.marked).length := by
      simp
    have crashedOnce := count_eq_one_of_mem nodup_range (mem_range.mpr within)
    have twinOnce := count_eq_one_of_mem nodup_range (mem_range.mpr some)
    omega

theorem Holder.replayed_pending {pending : Options}
    (same : plugin.replayed pending = plugin.record) : pending = noOptions := by
  funext name
  have options := congrFun (congrArg Record.options same) name
  exact append_left_eq_self.mp options

theorem Holder.replayed_noOptions :
    plugin.replayed noOptions = plugin.record ↔ plugin.configTrie "pluglib" = [] ∨
      plugin.configTrie "pluglib" = plugin.pluglibs.map PluglibEntry.name := by
  rw [replayed, record, Record.mk.injEq]
  simp only [noOptions, nil_append, true_and]
  by_cases empty : plugin.configTrie "pluglib" = []
  · simp [empty]
  · simp [empty]

theorem length_replayAll (pending : Options) (plugins : List Holder) :
    (replayAll pending plugins).length = plugins.length := by
  induction plugins generalizing pending with
  | nil => rfl
  | cons plugin plugins ih => rw [replayAll, length_cons, length_cons, ih]

/-- Plugins that keep their records have got no other options. -/
theorem replayAll_settled {pending : Options} {plugins : List Holder}
    (same : replayAll pending plugins = plugins.map Holder.record) :
    ∀ plugin ∈ plugins, plugin.replayed noOptions = plugin.record := by
  cases plugins with
  | nil => exact fun plugin member => absurd member not_mem_nil
  | cons first plugins =>
    rw [replayAll, map_cons, List.cons.injEq] at same
    intro plugin member
    rcases mem_cons.mp member with rfl | inside
    · rw [← Holder.replayed_pending same.1]
      exact same.1
    · rw [replayAll_noOptions] at same
      exact map_inj_left.mp same.2 plugin inside

/-- The recovery keeps the configuration of every plugin exactly when nothing is left behind. -/
theorem restored_iff (loaded : loop.Loaded) (place : loop.plugins = front ++ crashed :: back)
    (recovered : recover callbacks around failure crashed loop = .ok after) :
    Restored front crashed back after ↔
      Recovers front crashed back failure (around front.length) := by
  constructor
  case mp =>
    intro restored
    obtain ⟨distinct, alone⟩ := restored.distinct loaded place recovered
    obtain ⟨new, records, -⟩ := recover_records loaded place distinct alone recovered
    obtain ⟨other, kept, -⟩ := restored
    obtain ⟨before, behind⟩ := append_inj' (records.symm.trans kept)
      (by rw [length_replayAll, length_map])
    obtain ⟨fronts, -⟩ := append_inj before (by simp)
    constructor
    case distinct => exact distinct
    case alone => exact alone
    case consumed =>
      by_cases used : reloads failure crashed = true ∧ (around front.length).plugin.isSome
      · exact .inl used
      · cases back with
        | nil => exact .inr (.inl rfl)
        | cons plugin back =>
          rw [if_neg used, replayAll, map_cons] at behind
          exact .inr (.inr (Holder.replayed_pending (List.cons.inj behind).1))
    case settled =>
      intro plugin member
      rcases mem_append.mp member with inFront | inBack
      · exact Holder.replayed_noOptions.mp (map_inj_left.mp fronts plugin inFront)
      · exact Holder.replayed_noOptions.mp (replayAll_settled behind plugin inBack)
  case mpr =>
    intro recovers
    obtain ⟨new, records, loads⟩ := recover_records loaded place recovers.distinct recovers.alone
      recovered
    have own : ∀ plugins : List Holder, (∀ plugin ∈ plugins, plugin ∈ front ++ back) →
        plugins.map (Holder.replayed noOptions) = plugins.map Holder.record := by
      intro plugins inside
      apply map_congr_left
      intro plugin member
      exact Holder.replayed_noOptions.mpr (recovers.settled plugin (inside plugin member))
    have behind : replayAll (if reloads failure crashed = true ∧
        (around front.length).plugin.isSome then noOptions else crashed.configTrie) back =
          back.map Holder.record := by
      rcases recovers.consumed with used | none | empty
      · rw [if_pos used, replayAll_noOptions]
        exact own back fun plugin member => mem_append_right _ member
      · rw [none]
        rfl
      · rw [empty, ite_self, replayAll_noOptions]
        exact own back fun plugin member => mem_append_right _ member
    refine ⟨new, ?_, loads⟩
    rw [records, behind, own front fun plugin member => mem_append_left _ member]

/-- A plugin without libraries. -/
def plainHolder (address : Nat) (libname : String) (failed : Nat) : Holder where
  address := address
  library := address + 1
  libname := libname
  apiVersion := 1
  imports := []
  configTrie name := if name = "libname" then [libname] else []
  configCandidate := noOptions
  pluglibs := []
  candidatePluglibs := []
  links := []
  fds := []
  original := none
  mark := false
  failed := failed

/-- All the callbacks are content, and none registers anything. -/
def plainSurroundings : Surroundings :=
  ⟨some ⟨1, []⟩, fun _ => ⟨0, none⟩, [], false, [], true⟩

def plainCallbacks : Callbacks := ⟨fun _ => [], fun _ => []⟩

def plainLoop (failed : Nat) : Loop :=
  ⟨[plainHolder 0 "flow.so" failed, plainHolder 2 "refused.so" 0], ⟨[], 4, false⟩, [], []⟩

theorem plainLoop_loaded (failed : Nat) : (plainLoop failed).Loaded := by
  constructor
  case placed => simp [plainLoop, plainHolder]
  case separate => simp [plainLoop, plainHolder]
  case named => simp [plainLoop, plainHolder]
  case fresh => simp [plainLoop, plainHolder]

theorem restored_iff_first :
    ∃ after, recover plainCallbacks (fun _ => plainSurroundings) true (plainHolder 0 "flow.so" 0)
        (plainLoop 0) = .ok after ∧
      (Restored [] (plainHolder 0 "flow.so" 0) [plainHolder 2 "refused.so" 0] after ↔
        Recovers [] (plainHolder 0 "flow.so" 0) [plainHolder 2 "refused.so" 0] true
          plainSurroundings) := by
  refine ⟨_, rfl, ?_⟩
  exact @restored_iff (plainLoop 0) _ [] [plainHolder 2 "refused.so" 0] _ true plainCallbacks
    (fun _ => plainSurroundings) (plainLoop_loaded 0) rfl rfl

/-- A plugin that has failed too often leaves its options to the next one. -/
theorem restored_not :
    ∃ after, recover plainCallbacks (fun _ => plainSurroundings) true (plainHolder 0 "flow.so" 5)
        (plainLoop 5) = .ok after ∧
      after.plugins.map (fun plugin => (plugin.libname, plugin.configTrie "libname")) =
        [("refused.so", ["flow.so", "refused.so"])] ∧
      ¬ Restored [] (plainHolder 0 "flow.so" 5) [plainHolder 2 "refused.so" 0] after := by
  refine ⟨_, rfl, rfl, ?_⟩
  rintro ⟨new, records, -⟩
  have options := congrArg (List.map fun record => record.options "libname") records
  cases new with
  | none => exact absurd options (by decide)
  | some record => cases congrArg List.length options

end Ucollect.Loading
