import Ucollect.Proof.Loading.Adding

/-
The counter of a library is the number of the entries that refer to it.
-/

namespace Ucollect.Loading
open Library List Option Function

variable {libraries after : Libraries} {refs : Nat → Nat}

def entryCount (lib : Nat) (entries : List PluglibEntry) : Nat :=
  entries.countP fun entry => entry.lib = lib

theorem entryCount_cons (lib : Nat) (entry : PluglibEntry) (entries : List PluglibEntry) :
    entryCount lib (entry :: entries) =
      entryCount lib entries + if lib = entry.lib then 1 else 0 := by
  rw [entryCount, entryCount, countP_cons]
  by_cases same : entry.lib = lib
  · simp [same]
  · simp [same, Ne.symm same]

theorem entryCount_append (lib : Nat) (first second : List PluglibEntry) :
    entryCount lib (first ++ second) = entryCount lib first + entryCount lib second :=
  countP_append

/-- The counters have these values, and none has been below zero. -/
structure Libraries.Counts (libraries : Libraries) (refs : Nat → Nat) : Prop where
  counted : ∀ node ∈ libraries.pluglibs, node.refCount = refs node.id
  distinct : (libraries.pluglibs.map Pluglib.id).Nodup
  below : ∀ node ∈ libraries.pluglibs, node.id < libraries.fresh
  unknown : ∀ lib, libraries.fresh ≤ lib → refs lib = 0
  sound : libraries.wrapped = false

/-- The library is loaded. -/
def Libraries.Holds (libraries : Libraries) (lib : Nat) : Prop :=
  ∃ node ∈ libraries.pluglibs, node.id = lib ∧ node.info.isSome

/-- A node with this hash is left from a library that was not loaded. -/
def Libraries.Garbage (libraries : Libraries) (hash : Nat) : Prop :=
  ∃ node ∈ libraries.pluglibs, node.info = none ∧ node.hash = hash

/-- Loaded libraries stay, and no garbage appears. -/
structure Libraries.Extends (libraries after : Libraries) : Prop where
  holds : ∀ lib, libraries.Holds lib → after.Holds lib
  garbage : ∀ hash, after.Garbage hash → libraries.Garbage hash
  fresh : libraries.fresh ≤ after.fresh

theorem extends_refl (libraries : Libraries) : libraries.Extends libraries :=
  ⟨fun _ holds => holds, fun _ garbage => garbage, le_rfl⟩

theorem Libraries.Extends.trans {last : Libraries} (first : libraries.Extends after)
    (second : after.Extends last) : libraries.Extends last :=
  ⟨fun lib holds => second.holds lib (first.holds lib holds),
    fun hash garbage => first.garbage hash (second.garbage hash garbage),
    first.fresh.trans second.fresh⟩

theorem Libraries.Counts.congr {other : Nat → Nat} (counts : libraries.Counts refs)
    (same : ∀ lib, refs lib = other lib) : libraries.Counts other := by
  have equal : refs = other := funext same
  exact equal ▸ counts

/-- The memory is used for other things too. -/
theorem Libraries.Counts.grow (counts : libraries.Counts refs)
    (pluglibs : after.pluglibs = libraries.pluglibs) (wrapped : after.wrapped = libraries.wrapped)
    (fresh : libraries.fresh ≤ after.fresh) : after.Counts refs := by
  constructor
  case counted => exact pluglibs ▸ counts.counted
  case distinct => exact pluglibs ▸ counts.distinct
  case below =>
    intro node member
    exact (counts.below node (pluglibs ▸ member)).trans_le fresh
  case unknown => exact fun lib above => counts.unknown lib (fresh.trans above)
  case sound => exact wrapped.trans counts.sound

theorem extends_grow (pluglibs : after.pluglibs = libraries.pluglibs)
    (fresh : libraries.fresh ≤ after.fresh) : libraries.Extends after := by
  constructor
  case holds =>
    rintro lib ⟨node, member, holds⟩
    exact ⟨node, pluglibs ▸ member, holds⟩
  case garbage =>
    rintro hash ⟨node, member, garbage⟩
    exact ⟨node, pluglibs ▸ member, garbage⟩
  case fresh => exact fresh

theorem count_extends (libraries : Libraries) (lib : Nat) (change : Int) :
    libraries.Extends (libraries.count lib change) := by
  constructor
  case holds =>
    rintro other ⟨node, member, holds⟩
    refine ⟨_, List.mem_map_of_mem member, ?_⟩
    split
    · exact holds
    · exact holds
  case garbage =>
    rintro hash ⟨node, member, garbage⟩
    obtain ⟨old, known, rfl⟩ := List.mem_map.mp member
    refine ⟨old, known, ?_⟩
    split at garbage
    · exact garbage
    · exact garbage
  case fresh => exact le_rfl

/-- A counter changes by one, and it does not go below zero. -/
theorem Libraries.Counts.count (counts : libraries.Counts refs) {lib : Nat} {change : Int}
    {other : Nat → Nat}
    (changes : ∀ id, (other id : Int) = refs id + if id = lib then change else 0)
    (unknown : ∀ id, libraries.fresh ≤ id → other id = 0) :
    (libraries.count lib change).Counts other := by
  constructor
  case counted =>
    intro node member
    obtain ⟨old, known, rfl⟩ := List.mem_map.mp member
    have value := counts.counted old known
    have changed := changes old.id
    split
    case isTrue same =>
      rw [if_pos same] at changed
      show old.refCount + change = other old.id
      rw [value, changed]
    case isFalse apart =>
      rw [if_neg apart, add_zero] at changed
      rw [value, changed]
  case distinct =>
    have ids : (libraries.count lib change).pluglibs.map Pluglib.id =
        libraries.pluglibs.map Pluglib.id := by
      show (libraries.pluglibs.map _).map Pluglib.id = _
      rw [List.map_map]
      apply map_congr_left
      intro node _
      rw [comp_apply]
      split
      · rfl
      · rfl
    rw [ids]
    exact counts.distinct
  case below =>
    intro node member
    obtain ⟨old, known, rfl⟩ := List.mem_map.mp member
    have small := counts.below old known
    split
    · exact small
    · exact small
  case unknown => exact unknown
  case sound =>
    show (libraries.wrapped || libraries.pluglibs.any _) = false
    rw [counts.sound, Bool.false_or, List.any_eq_false]
    intro node member
    rw [decide_eq_true_eq]
    rintro ⟨same, negative⟩
    have changed := changes node.id
    rw [if_pos same, ← counts.counted node member] at changed
    omega

theorem unlink_extends (entries : List PluglibEntry) (libraries : Libraries) :
    libraries.Extends (pluglibsUnlink entries libraries) := by
  rw [pluglibsUnlink]
  induction entries generalizing libraries with
  | nil => exact extends_refl libraries
  | cons entry entries ih =>
    rw [foldl_cons]
    refine Libraries.Extends.trans ?_ (ih _)
    split
    · exact count_extends libraries entry.lib (-1)
    · exact extends_refl libraries

variable {entries : List PluglibEntry}

/-- The references of a plugin are taken back. -/
theorem Libraries.Counts.unlink
    (counts : libraries.Counts fun lib => refs lib + entryCount lib entries)
    (ready : ∀ entry ∈ entries, entry.ready = true) :
    (pluglibsUnlink entries libraries).Counts refs := by
  rw [pluglibsUnlink]
  induction entries generalizing libraries with
  | nil => exact counts
  | cons entry entries ih =>
    rw [foldl_cons, if_pos (ready entry mem_cons_self)]
    apply ih _ fun other member => ready other (mem_cons_of_mem _ member)
    apply counts.count
    · intro id
      rw [entryCount_cons]
      split
      · omega
      · omega
    · intro id above
      have none := counts.unknown id above
      rw [entryCount_cons] at none
      omega

/-- The references of a plugin are added. -/
theorem Libraries.Counts.link (counts : libraries.Counts refs)
    (holds : ∀ entry ∈ entries, libraries.Holds entry.lib) :
    (pluglibsLink entries libraries).Counts (fun lib => refs lib + entryCount lib entries) ∧
      libraries.Extends (pluglibsLink entries libraries) := by
  rw [pluglibsLink]
  induction entries generalizing libraries refs with
  | nil => exact ⟨counts, extends_refl libraries⟩
  | cons entry entries ih =>
    rw [foldl_cons]
    have extended := count_extends libraries entry.lib 1
    have once : (libraries.count entry.lib 1).Counts
        (fun lib => refs lib + if lib = entry.lib then 1 else 0) := by
      apply counts.count
      · intro id
        split
        · omega
        · omega
      · intro id above
        obtain ⟨node, member, same, -⟩ := holds entry mem_cons_self
        have below := counts.below node member
        have none := counts.unknown id above
        rw [if_neg (by omega)]
        omega
    obtain ⟨all, later⟩ := ih once fun other member =>
      extended.holds _ (holds other (mem_cons_of_mem _ member))
    refine ⟨?_, extended.trans later⟩
    apply all.congr
    intro lib
    rw [entryCount_cons]
    omega

/-- A new node at the end has no references. -/
theorem Libraries.Counts.append (counts : libraries.Counts refs) {node : Pluglib}
    (id : node.id = libraries.fresh) (zero : node.refCount = 0) :
    (⟨libraries.pluglibs ++ [node], libraries.fresh + 1, libraries.wrapped⟩ : Libraries).Counts
      refs := by
  constructor
  case counted =>
    intro other member
    rcases mem_append.mp member with old | new
    · exact counts.counted other old
    · rw [mem_singleton.mp new, zero, id, counts.unknown libraries.fresh le_rfl]
      rfl
  case distinct =>
    rw [map_append, map_singleton, ← concat_eq_append, nodup_concat]
    refine ⟨?_, counts.distinct⟩
    intro member
    obtain ⟨old, known, same⟩ := List.mem_map.mp member
    have below := counts.below old known
    omega
  case below =>
    intro other member
    rcases mem_append.mp member with old | new
    · exact (counts.below other old).trans (Nat.lt_succ_self _)
    · rw [mem_singleton.mp new, id]
      exact Nat.lt_succ_self _
  case unknown => exact fun lib above => counts.unknown lib (Nat.le_of_succ_le above)
  case sound => exact counts.sound

theorem findCandidate_cases {node found : Pluglib} {info : LibraryInfo} {nodes : List Pluglib}
    (searched : findCandidate node info nodes = .ok found) :
    found ∈ nodes ∧ (found.id = node.id ∨ found.hash = node.hash ∨ found.info.isSome) := by
  induction nodes with
  | nil => cases searched
  | cons candidate nodes ih =>
    have later : findCandidate node info nodes = .ok found → found ∈ candidate :: nodes ∧
        (found.id = node.id ∨ found.hash = node.hash ∨ found.info.isSome) := by
      intro searched
      exact (ih searched).imp_left (mem_cons_of_mem _)
    rw [findCandidate] at searched
    split at searched
    case isTrue same =>
      cases searched
      exact ⟨mem_cons_self, .inl same⟩
    case isFalse =>
      split at searched
      case isTrue same =>
        cases searched
        exact ⟨mem_cons_self, .inr (.inl same)⟩
      case isFalse =>
        split at searched
        case h_1 => cases searched
        case h_2 other known =>
          split at searched
          case isTrue =>
            cases searched
            exact ⟨mem_cons_self, .inr (.inr (by rw [known]; rfl))⟩
          case isFalse => exact later searched

variable {live : Bool}

section

variable (counts : libraries.Counts refs)
include counts

/-- A library that is not loaded leaves its node behind. -/
theorem install_none {libname : String} {load : PluglibLoad}
    (installs : pluglibInstall libraries libname load live = .ok (none, after)) :
    after.Counts refs ∧ (∀ lib, libraries.Holds lib → after.Holds lib) ∧
      libraries.fresh ≤ after.fresh ∧ load.info = none ∧
      ∀ hash, after.Garbage hash → libraries.Garbage hash ∨ load.hash = hash := by
  rw [pluglibInstall] at installs
  cases loaded : load.info with
  | some info =>
    rw [loaded] at installs
    obtain ⟨found, -, returned⟩ := bind_returns installs
    cases returned
  | none =>
    rw [loaded] at installs
    cases installs
    refine ⟨counts.append rfl rfl, ?_, Nat.le_succ _, rfl, ?_⟩
    · rintro lib ⟨node, member, holds⟩
      exact ⟨node, mem_append_left _ member, holds⟩
    · rintro hash ⟨node, member, empty, same⟩
      rcases mem_append.mp member with old | new
      · exact .inl ⟨node, old, empty, same⟩
      · rw [mem_singleton.mp new] at same
        exact .inr same

/-- Without garbage of its hash, the library or a loaded one takes its place. -/
theorem install_some {libname : String} {load : PluglibLoad} {entry : PluglibEntry}
    (installs : pluglibInstall libraries libname load live = .ok (some entry, after))
    (clean : load.info.isSome → ¬ libraries.Garbage load.hash) :
    load.info.isSome ∧ entry.ready = true ∧ after.Holds entry.lib ∧ libraries.Extends after ∧
      after.Counts fun lib => refs lib + if live = true ∧ lib = entry.lib then 1 else 0 := by
  rw [pluglibInstall] at installs
  cases loaded : load.info with
  | none =>
    rw [loaded] at installs
    cases installs
  | some info =>
    rw [loaded] at installs
    obtain ⟨found, searched, returned⟩ := bind_returns installs
    have appended := @Libraries.Counts.append libraries refs counts
      ⟨libraries.fresh, load.hash, some info, 0⟩ rfl rfl
    have extended : libraries.Extends ⟨libraries.pluglibs ++
        [⟨libraries.fresh, load.hash, some info, 0⟩], libraries.fresh + 1, libraries.wrapped⟩ := by
      constructor
      case holds =>
        rintro lib ⟨node, member, holds⟩
        exact ⟨node, mem_append_left _ member, holds⟩
      case garbage =>
        rintro hash ⟨node, member, empty, same⟩
        rcases mem_append.mp member with old | new
        · exact ⟨node, old, empty, same⟩
        · rw [mem_singleton.mp new] at empty
          cases empty
      case fresh => exact Nat.le_succ _
    obtain ⟨member, which⟩ := findCandidate_cases searched
    have ready : found.info.isSome := by
      rcases mem_append.mp member with old | new
      · rcases which with same | same | some
        · have below := counts.below found old
          dsimp only at same
          omega
        · by_contra empty
          exact clean (by rw [loaded]; rfl)
            ⟨found, old, not_isSome_iff_eq_none.mp empty, same⟩
        · exact some
      · rw [mem_singleton.mp new]
        rfl
    cases live with
    | false =>
      cases returned
      exact ⟨rfl, ready, ⟨found, member, rfl, ready⟩, extended, appended.congr (by simp)⟩
    | true =>
      cases returned
      have only : ∀ entry ∈ [(⟨libname, found.id, true⟩ : PluglibEntry)],
          Libraries.Holds ⟨libraries.pluglibs ++ [⟨libraries.fresh, load.hash, some info, 0⟩],
            libraries.fresh + 1, libraries.wrapped⟩ entry.lib := by
        intro entry inside
        rw [mem_singleton.mp inside]
        exact ⟨found, member, rfl, ready⟩
      obtain ⟨linked, later⟩ := appended.link only
      refine ⟨rfl, ready, later.holds _ ⟨found, member, rfl, ready⟩, extended.trans later, ?_⟩
      apply linked.congr
      intro lib
      rw [entryCount_cons]
      simp [entryCount]

/-- An installation ends at this library. -/
def firstMissing (disk : String → PluglibLoad) (names : List String) : Option String :=
  names.find? fun name => (disk name).info.isNone

/-- The entries are ready, and their libraries are loaded. -/
def Libraries.Serves (libraries : Libraries) (entries : List PluglibEntry) : Prop :=
  ∀ entry ∈ entries, entry.ready = true ∧ libraries.Holds entry.lib

/-- An installation leaves garbage only when it fails. -/
theorem installAll_counts {disk : String → PluglibLoad} {installed : Bool} {names : List String}
    {result : List PluglibEntry}
    (clean : ∀ name ∈ names, (disk name).info.isSome → ¬ libraries.Garbage (disk name).hash)
    (serves : libraries.Serves entries)
    (ran : installAll disk live names entries libraries = .ok (installed, result, after)) :
    after.Serves result ∧ (∀ lib, libraries.Holds lib → after.Holds lib) ∧
      libraries.fresh ≤ after.fresh ∧
      (∀ hash, after.Garbage hash → libraries.Garbage hash ∨ installed = false ∧
        ∃ name, firstMissing disk names = some name ∧ (disk name).hash = hash) ∧
      ∃ new, result = entries ++ new ∧
        after.Counts fun lib => refs lib + if live = true then entryCount lib new else 0 := by
  induction names generalizing entries libraries refs with
  | nil =>
    cases ran
    refine ⟨serves, fun _ holds => holds, le_rfl, fun _ garbage => .inl garbage, [],
      (append_nil _).symm, counts.congr ?_⟩
    intro lib
    rw [entryCount, countP_nil, ite_self, Nat.add_zero]
  | cons name names ih =>
    rw [installAll] at ran
    obtain ⟨⟨entry, middle⟩, installs, rest⟩ := bind_returns ran
    cases entry with
    | none =>
      cases rest
      obtain ⟨kept, holds, fresh, failed, garbage⟩ := install_none counts installs
      refine ⟨?_, holds, fresh, ?_, [], (append_nil _).symm, kept.congr ?_⟩
      · intro entry member
        exact (serves entry member).imp_right (holds _)
      · intro hash left
        rcases garbage hash left with old | same
        · exact .inl old
        · refine .inr ⟨rfl, name, ?_, same⟩
          exact List.find?_cons_of_pos (by rw [failed]; rfl)
      · intro lib
        rw [entryCount, countP_nil, ite_self, Nat.add_zero]
    | some entry =>
      obtain ⟨loads, ready, served, extended, once⟩ :=
        install_some counts installs (clean name mem_cons_self)
      have more : middle.Serves (entries ++ [entry]) := by
        intro other member
        rcases mem_append.mp member with old | new
        · exact (serves other old).imp_right (extended.holds _)
        · rw [mem_singleton.mp new]
          exact ⟨ready, served⟩
      have cleaner : ∀ name ∈ names, (disk name).info.isSome →
          ¬ middle.Garbage (disk name).hash := by
        intro other member loads garbage
        exact clean other (mem_cons_of_mem _ member) loads (extended.garbage _ garbage)
      obtain ⟨serving, holds, fresh, garbage, new, shape, all⟩ := ih once cleaner more rest
      refine ⟨serving, fun lib stays => holds lib (extended.holds lib stays),
        extended.fresh.trans fresh, ?_, entry :: new, ?_, all.congr ?_⟩
      · intro hash left
        rcases garbage hash left with old | ⟨failed, other, member, found⟩
        · exact .inl (extended.garbage hash old)
        · refine .inr ⟨failed, other, ?_, found⟩
          rw [firstMissing, List.find?_cons_of_neg]
          · exact member
          · show ¬ (disk name).info.isNone = true
            rw [isNone_iff_eq_none, ← ne_eq, ← isSome_iff_ne_none]
            exact loads
      · rw [shape, append_assoc, singleton_append]
      · intro lib
        rw [entryCount_cons]
        cases live with
        | false => simp
        | true =>
          simp only [true_and, if_true]
          omega

/-- The cleanup keeps the libraries with references and no others. -/
theorem cleanup_counts :
    (pluglibsCleanup libraries).Counts refs ∧
      (∀ node ∈ (pluglibsCleanup libraries).pluglibs, node.info.isSome ∧ 0 < refs node.id) ∧
      ∀ lib, libraries.Holds lib → 0 < refs lib → (pluglibsCleanup libraries).Holds lib := by
  have kept : ∀ node ∈ (pluglibsCleanup libraries).pluglibs, node ∈ libraries.pluglibs ∧
      node.info.isSome ∧ node.refCount ≠ 0 := by
    intro node member
    obtain ⟨known, holds⟩ := mem_filter.mp member
    rw [Bool.and_eq_true, decide_eq_true_iff] at holds
    exact ⟨known, holds⟩
  refine ⟨?_, ?_, ?_⟩
  · constructor
    case counted => exact fun node member => counts.counted node (kept node member).1
    case distinct => exact (filter_sublist.map _).nodup counts.distinct
    case below => exact fun node member => counts.below node (kept node member).1
    case unknown => exact counts.unknown
    case sound => exact counts.sound
  · intro node member
    obtain ⟨known, loaded, counted⟩ := kept node member
    have value := counts.counted node known
    exact ⟨loaded, by omega⟩
  · rintro lib ⟨node, member, rfl, loaded⟩ positive
    have value := counts.counted node member
    refine ⟨node, mem_filter.mpr ⟨member, ?_⟩, rfl, loaded⟩
    rw [Bool.and_eq_true, decide_eq_true_iff]
    exact ⟨loaded, by omega⟩

end

end Ucollect.Loading
