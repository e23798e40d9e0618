import Mathlib.Tactic

/-
This file contains tables with one row for each key, and sums over the classes of a key.
-/

namespace Ucollect.Library
open List Option

variable {A K : Type} {key : A → K} {rows : List A}

/-- A key names one row. -/
theorem row_unique (distinct : (rows.map key).Nodup) {first second : A} (one : first ∈ rows)
    (other : second ∈ rows) (same : key first = key second) : first = second :=
  inj_on_of_nodup_map distinct one other same

variable [DecidableEq K]

/-- The row with the same key is replaced. -/
def putRow (key : A → K) (row : A) (rows : List A) : List A :=
  rows.map fun other => if key other = key row then row else other

theorem putRow_of_not_mem {row : A} (absent : key row ∉ rows.map key) :
    putRow key row rows = rows := by
  conv_rhs => rw [← List.map_id rows]
  apply map_congr_left
  intro other member
  exact if_neg fun same => absent (List.mem_map.mpr ⟨other, member, same⟩)

theorem mem_putRow_self {old row : A} (member : old ∈ rows) (same : key old = key row) :
    row ∈ putRow key row rows :=
  List.mem_map.mpr ⟨old, member, if_pos same⟩

theorem mem_putRow_of_ne {other row : A} (member : other ∈ rows) (differs : key other ≠ key row) :
    other ∈ putRow key row rows :=
  List.mem_map.mpr ⟨other, member, if_neg differs⟩

/-- A row of the new table is the new row or an old one. -/
theorem of_mem_putRow {other row : A} (member : other ∈ putRow key row rows) :
    other = row ∨ other ∈ rows ∧ key other ≠ key row := by
  obtain ⟨old, known, rfl⟩ := List.mem_map.mp member
  split
  · exact .inl rfl
  · next differs => exact .inr ⟨known, differs⟩

/-- The old row and the new one have the same company. -/
theorem exists_others (distinct : (rows.map key).Nodup) {old row : A} (member : old ∈ rows)
    (same : key row = key old) :
    ∃ others, rows.Perm (old :: others) ∧ (putRow key row rows).Perm (row :: others) := by
  induction rows with
  | nil => cases member
  | cons first rest ih =>
    obtain ⟨away, distinct⟩ := nodup_cons.mp distinct
    rcases mem_cons.mp member with rfl | inside
    · refine ⟨rest, .refl _, ?_⟩
      have kept : putRow key row rest = rest := putRow_of_not_mem (same ▸ away)
      simp only [putRow, map_cons, same, if_true] at kept ⊢
      rw [kept]
    · obtain ⟨others, before, after⟩ := ih distinct inside
      have differ : key first ≠ key row := fun equal =>
        away (List.mem_map.mpr ⟨old, inside, same.symm.trans equal.symm⟩)
      refine ⟨first :: others, (before.cons first).trans (.swap _ _ _), ?_⟩
      have after' : (first :: putRow key row rest).Perm (first :: row :: others) := after.cons first
      simp only [putRow, map_cons, if_neg differ] at after' ⊢
      exact after'.trans (.swap _ _ _)

/-- A row is found by its key. -/
theorem find_row (distinct : (rows.map key).Nodup) {row : A} (member : row ∈ rows) :
    rows.find? (fun other => key other = key row) = some row := by
  have present : (rows.find? fun other => key other = key row).isSome :=
    List.find?_isSome.mpr ⟨row, member, decide_eq_true rfl⟩
  obtain ⟨other, found⟩ := isSome_iff_exists.mp present
  have same : key other = key row := by simpa using List.find?_some found
  rw [found, row_unique distinct (mem_of_find?_eq_some found) member same]

section Entries

variable {V : Type} {change : Option V → V} {entries : List (K × V)} {name : K}

/-- The entry of the name is changed, or a new one is added behind the others. -/
def upsert (name : K) (change : Option V → V) : List (K × V) → List (K × V)
  | [] => [(name, change none)]
  | entry :: entries =>
    if entry.1 = name then (name, change (some entry.2)) :: entries
    else entry :: upsert name change entries

theorem lookup_entry [BEq K] [LawfulBEq K] (entry : K × V) (entries : List (K × V)) (other : K) :
    (entry :: entries).lookup other =
      if other = entry.1 then some entry.2 else entries.lookup other := by
  obtain ⟨name, value⟩ := entry
  rw [lookup_cons]
  by_cases same : other = name
  · rw [if_pos same, same, beq_self_eq_true]
  · rw [if_neg same, beq_eq_false_iff_ne.mpr same]

theorem lookup_upsert [BEq K] [LawfulBEq K] (other : K) : (upsert name change entries).lookup other =
    if other = name then some (change (entries.lookup name)) else entries.lookup other := by
  induction entries with
  | nil => exact lookup_entry (name, change none) [] other
  | cons entry entries ih =>
    rw [upsert]
    by_cases found : entry.1 = name
    · rw [if_pos found, lookup_entry, lookup_entry, lookup_entry, if_pos found.symm]
      by_cases same : other = name
      · rw [if_pos same, if_pos same]
      · rw [if_neg same, if_neg same, if_neg (found ▸ same)]
    · rw [if_neg found, lookup_entry, ih, lookup_entry, lookup_entry, if_neg (Ne.symm found)]
      by_cases here : other = entry.1
      · rw [if_pos here, if_pos here, if_neg (here ▸ found)]
      · rw [if_neg here, if_neg here]

theorem upsert_of_not_mem (absent : name ∉ entries.map Prod.fst) :
    upsert name change entries = entries ++ [(name, change none)] := by
  induction entries with
  | nil => rfl
  | cons entry entries ih =>
    rw [map_cons, mem_cons, not_or] at absent
    rw [upsert, if_neg (Ne.symm absent.1), ih absent.2, cons_append]

theorem map_upsert : (upsert name change entries).map Prod.fst =
    if name ∈ entries.map Prod.fst then entries.map Prod.fst else entries.map Prod.fst ++ [name] := by
  split
  case isFalse absent => rw [upsert_of_not_mem absent, map_append, map_singleton]
  case isTrue present =>
    induction entries with
    | nil => cases present
    | cons entry entries ih =>
      rw [upsert]
      split
      case isTrue found => rw [map_cons, map_cons, found]
      case isFalse other =>
        rw [map_cons, mem_cons] at present
        rw [map_cons, map_cons, ih (present.resolve_left fun same => other same.symm)]

theorem nodup_upsert (distinct : (entries.map Prod.fst).Nodup) :
    ((upsert name change entries).map Prod.fst).Nodup := by
  rw [map_upsert]
  split
  · exact distinct
  · exact nodup_append.mpr ⟨distinct, nodup_singleton name, fun first one second two same =>
      ‹name ∉ _› (by rwa [← mem_singleton.mp two, ← same])⟩

/-- An entry is what is found under its name. -/
theorem mem_iff_lookup [BEq K] [LawfulBEq K] (distinct : (entries.map Prod.fst).Nodup) {value : V} :
    (name, value) ∈ entries ↔ entries.lookup name = some value := by
  induction entries with
  | nil => simp
  | cons entry entries ih =>
    rw [map_cons, nodup_cons] at distinct
    rw [mem_cons, ih distinct.2, lookup_entry]
    by_cases same : name = entry.1
    · subst same
      have other : entries.lookup entry.1 = none := by
        rw [lookup_eq_none_iff]
        intro row member
        rw [bne_iff_ne]
        rintro equal
        exact distinct.1 (List.mem_map.mpr ⟨row, member, equal.symm⟩)
      simp [other, Prod.ext_iff, eq_comm]
    · simp [same, Prod.ext_iff]

theorem lookup_map {W : Type} [BEq K] [LawfulBEq K] (change : K → V → W) (entries : List (K × V))
    (name : K) : (entries.map fun entry => (entry.1, change entry.1 entry.2)).lookup name =
      (entries.lookup name).map (change name) := by
  induction entries with
  | nil => rfl
  | cons entry entries ih =>
    rw [map_cons, lookup_entry, lookup_entry, ih]
    by_cases same : name = entry.1
    · rw [if_pos same, if_pos same, same, map_some]
    · rw [if_neg same, if_neg same]

/-- The names are those under which something is found. -/
theorem mem_names_iff [BEq K] [LawfulBEq K] (distinct : (entries.map Prod.fst).Nodup) :
    name ∈ entries.map Prod.fst ↔ (entries.lookup name).isSome = true := by
  rw [isSome_iff_exists, List.mem_map]
  constructor
  · rintro ⟨entry, member, rfl⟩
    exact ⟨entry.2, (mem_iff_lookup distinct).mp member⟩
  · rintro ⟨value, found⟩
    exact ⟨(name, value), (mem_iff_lookup distinct).mpr found, rfl⟩

/-- The entries of a name add up to what is found under it. -/
theorem sum_named {M : Type} [AddCommMonoid M] [BEq K] [LawfulBEq K]
    (distinct : (entries.map Prod.fst).Nodup) (value : V → M) (name : K) :
    ((entries.filter fun entry => entry.1 = name).map fun entry => value entry.2).sum =
      ((entries.lookup name).map value).getD 0 := by
  induction entries with
  | nil => rfl
  | cons entry entries ih =>
    rw [map_cons, nodup_cons] at distinct
    rw [lookup_entry]
    by_cases same : name = entry.1
    · have absent : entries.lookup name = none := by
        rw [← not_isSome_iff_eq_none, ← mem_names_iff distinct.2, same]
        exact distinct.1
      have rest := ih distinct.2
      rw [absent] at rest
      rw [if_pos same, filter_cons_of_pos (by simp [same]), map_cons, sum_cons, rest]
      exact add_zero _
    · rw [if_neg same, filter_cons_of_neg (by simp [Ne.symm same])]
      exact ih distinct.2

end Entries

section Classes

variable {X M : Type} [AddCommMonoid M]

/-- One class of a list without repetitions takes a value, and the other classes take nothing. -/
theorem sum_single {keys : List K} (distinct : keys.Nodup) (key : K) (value : M) :
    (keys.map fun other => if key = other then value else 0).sum =
      if key ∈ keys then value else 0 := by
  induction keys with
  | nil => simp
  | cons other rest hypothesis =>
    obtain ⟨fresh, distinct⟩ := nodup_cons.mp distinct
    rw [map_cons, sum_cons, hypothesis distinct]
    by_cases same : key = other
    · subst same
      simp [fresh]
    · simp [same]

/-- Each item belongs to the class of its key, so the sums over the classes add up. -/
theorem sum_classes {keys : List K} (distinct : keys.Nodup) (items : List X) (key : X → K)
    (value : X → M) :
    (keys.map fun own => ((items.filter fun item => key item = own).map value).sum).sum =
      ((items.filter fun item => key item ∈ keys).map value).sum := by
  induction items with
  | nil => simp
  | cons item rest hypothesis =>
    have head (own : K) : (((item :: rest).filter fun item => key item = own).map value).sum =
        (if key item = own then value item else 0) +
          ((rest.filter fun item => key item = own).map value).sum := by
      by_cases same : key item = own <;> simp [same]
    simp only [head]
    rw [sum_map_add, sum_single distinct, hypothesis]
    by_cases member : key item ∈ keys <;> simp [member]

end Classes

end Ucollect.Library
