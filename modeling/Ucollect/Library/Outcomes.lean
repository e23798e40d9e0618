import Mathlib.Tactic

/-
This file contains rules for computations that return a value or stop with a fault.
-/

namespace Ucollect.Library
open List Option

variable {E A B I : Type} {good : A → Prop} {bad : E → Prop} {result : Except E A}

/-- The computation returns a good value or stops with an expected fault. -/
def Concludes (good : A → Prop) (bad : E → Prop) : Except E A → Prop
  | .ok value => good value
  | .error fault => bad fault

theorem Concludes.value {value : A} (concludes : Concludes good bad result) (returned : result = .ok value) :
    good value := by
  rw [returned] at concludes
  exact concludes

theorem Concludes.fault {fault : E} (concludes : Concludes good bad result) (stopped : result = .error fault) :
    bad fault := by
  rw [stopped] at concludes
  exact concludes

/-- A promise about a sequence follows from its two parts. -/
theorem Concludes.bind {next : A → Except E B} {final : B → Prop} (concludes : Concludes good bad result)
    (goes : ∀ value, good value → Concludes final bad (next value)) :
    Concludes final bad (result >>= next) := by
  cases result with
  | ok value => exact goes value concludes
  | error fault => exact concludes

/-- A promise may be weakened on both sides. -/
theorem Concludes.weaken {better : A → Prop} {worse : E → Prop} (concludes : Concludes better worse result)
    (weaker : ∀ value, better value → good value) (milder : ∀ fault, worse fault → bad fault) :
    Concludes good bad result := by
  cases result with
  | ok value => exact weaker value concludes
  | error fault => exact milder fault concludes

theorem ok_bind (value : A) (next : A → Except E B) : (Except.ok value >>= next) = next value := rfl

/-- A sequence that returns went through a middle value. -/
theorem bind_returns {next : A → Except E B} {final : B} (returned : result >>= next = .ok final) :
    ∃ value, result = .ok value ∧ next value = .ok final := by
  cases result with
  | ok value => exact ⟨value, rfl, returned⟩
  | error fault => cases returned

/-- A condition that each step keeps holds at the end of the run. -/
theorem concludes_foldlM {step : A → I → Except E A} {items : List I} {start : A}
    (holds : good start)
    (keeps : ∀ value, good value → ∀ item ∈ items, Concludes good bad (step value item)) :
    Concludes good bad (items.foldlM step start) := by
  induction items generalizing start with
  | nil => exact holds
  | cons item items ih =>
    rw [foldlM_cons]
    apply Concludes.bind (keeps start holds item mem_cons_self)
    intro next kept
    exact ih kept fun value stands other member =>
      keeps value stands other (mem_cons_of_mem _ member)

variable {items : List A} {results : List B}

theorem forall₂_right {relation : A → B → Prop} (related : List.Forall₂ relation items results)
    {value : B} (member : value ∈ results) :
    ∃ item ∈ items, relation item value := by
  induction related with
  | nil => cases member
  | cons holds rest ih =>
    rcases mem_cons.mp member with rfl | inside
    · exact ⟨_, mem_cons_self, holds⟩
    · obtain ⟨item, known, relates⟩ := ih inside
      exact ⟨item, mem_cons_of_mem _ known, relates⟩

theorem forall₂_getElem? {relation : A → B → Prop} (related : List.Forall₂ relation items results)
    {position : Nat} {value : B} (found : results[position]? = some value) :
    ∃ item, items[position]? = some item ∧ relation item value := by
  induction related generalizing position with
  | nil => cases found
  | cons holds rest ih =>
    cases position with
    | zero =>
      cases found
      exact ⟨_, rfl, holds⟩
    | succ position => exact ih found

/-- A step for each item returns when every step does. -/
theorem concludes_forM {act : I → Except E PUnit} {items : List I}
    (each : ∀ item ∈ items, Concludes (fun _ => True) bad (act item)) :
    Concludes (fun _ => True) bad (items.forM act) := by
  induction items with
  | nil => trivial
  | cons item items ih =>
    apply Concludes.bind (each item mem_cons_self)
    intro _ _
    exact ih fun other member => each other (mem_cons_of_mem _ member)


/-- Each result of the list is good for its item. -/
theorem concludes_mapM {results : I → B → Prop} {compute : I → Except E B} {items : List I}
    (each : ∀ item ∈ items, Concludes (results item) bad (compute item)) :
    Concludes (List.Forall₂ results items) bad (items.mapM compute) := by
  induction items with
  | nil => exact List.Forall₂.nil
  | cons item items ih =>
    rw [mapM_cons]
    apply Concludes.bind (each item mem_cons_self)
    intro value holds
    apply Concludes.bind (ih fun other member => each other (mem_cons_of_mem _ member))
    intro values rest
    exact List.Forall₂.cons holds rest

/-- Nothing fails when each item has a value. -/
theorem mapM_some {compute : A → Option B} {value : A → B}
    (each : ∀ item ∈ items, compute item = some (value item)) :
    items.mapM compute = some (items.map value) := by
  induction items with
  | nil => rfl
  | cons item items ih =>
    rw [forall_mem_cons] at each
    rw [mapM_cons, each.1, ih each.2]
    rfl

/-- A list computes when every item does. -/
theorem mapM_isSome (compute : A → Option B) (items : List A) :
    (items.mapM compute).isSome = items.all fun item => (compute item).isSome := by
  induction items with
  | nil => rfl
  | cons item items ih =>
    rw [mapM_cons, all_cons, ← ih]
    cases compute item with
    | none => rfl
    | some value => cases items.mapM compute <;> rfl

theorem exists_of_mapM {compute : A → Option B} (computed : items.mapM compute = some results)
    {result : B} (member : result ∈ results) :
    ∃ item ∈ items, compute item = some result := by
  induction items generalizing results with
  | nil =>
    cases computed
    cases member
  | cons item items ih =>
    rw [mapM_cons, bind_eq_bind, bind_eq_some_iff] at computed
    obtain ⟨first, one, computed⟩ := computed
    rw [bind_eq_bind, bind_eq_some_iff] at computed
    obtain ⟨rest, others, same⟩ := computed
    cases same
    rcases mem_cons.mp member with rfl | later
    · exact ⟨item, mem_cons_self, one⟩
    · obtain ⟨other, inside, done⟩ := ih others later
      exact ⟨other, mem_cons_of_mem _ inside, done⟩

end Ucollect.Library
