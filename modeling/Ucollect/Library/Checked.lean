import Mathlib.Tactic

/-
This file contains computations with numbers of a limited size and memory blocks of a limited size,
and the rules that compare them with partial functions that have no limits.
-/

namespace Ucollect.Library

/-- Nothing is known about a step outside of a block, and a failed check stops in order. -/
inductive Stop where
  | outside
  | died
  deriving DecidableEq, Repr

/-- The flag says that some number was too large for its type. -/
structure Run (A : Type) where
  wrapped : Bool
  outcome : Except Stop A

namespace Run

def bind' {A B : Type} (run : Run A) (next : A → Run B) : Run B :=
  match run.outcome with
  | .error stop => ⟨run.wrapped, .error stop⟩
  | .ok value =>
    let later := next value
    ⟨run.wrapped || later.wrapped, later.outcome⟩

instance : Monad Run where
  pure value := ⟨false, .ok value⟩
  bind := bind'

/-- The computation went outside of a block. -/
def outside {A : Type} (run : Run A) : Bool :=
  match run.outcome with
  | .error .outside => true
  | _ => false

def returned {A : Type} (run : Run A) : Bool :=
  match run.outcome with
  | .ok _ => true
  | .error _ => false

/-- No number was too large, and every step was inside its block. -/
def Safe {A : Type} (run : Run A) : Prop := run.wrapped = false ∧ run.outside = false

instance {A : Type} (run : Run A) : Decidable run.Safe := by
  unfold Safe
  infer_instance

end Run

/-- A checked computation also has a state. -/
abbrev Checked (C A : Type) : Type := StateT C Run A

namespace Checked

variable {C A : Type}

def stop (stop : Stop) : Checked C A := fun _ => ⟨false, .error stop⟩

/-- A number that is too large loses its high bits. -/
def number (limit value : Nat) : Checked C Nat := fun state =>
  ⟨decide (limit ≤ value), .ok (value % limit, state)⟩

def require (holds : Bool) (otherwise : Stop) : Checked C Unit := fun state =>
  ⟨false, if holds then .ok ((), state) else .error otherwise⟩

section Steps

variable {B : Type} {first : Checked C A} {next : A → Checked C B} {state later : C} {value : A}

/-- A step that returns is followed by the next one. -/
theorem bind_ok (returns : first state = ⟨false, .ok (value, later)⟩) :
    (first >>= next) state = next value later := by
  change Run.bind' (first state) _ = _
  rw [returns]
  rfl

theorem get_bind {next : C → Checked C B} :
    ((get : Checked C C) >>= next) state = next state state := by
  rfl

theorem bind_error {stopped : Stop} (stops : first state = ⟨false, .error stopped⟩) :
    (first >>= next) state = ⟨false, .error stopped⟩ := by
  change Run.bind' (first state) _ = _
  rw [stops]
  rfl

/-- A flag that is set stays set. -/
theorem bind_wrapped (wraps : (first state).wrapped = true) :
    ((first >>= next) state).wrapped = true := by
  change (Run.bind' (first state) _).wrapped = true
  rw [Run.bind']
  split
  · exact wraps
  · simp [wraps]

theorem require_ok {otherwise : Stop} {holds : Bool} (met : holds = true) :
    (require holds otherwise : Checked C Unit) state = ⟨false, .ok ((), state)⟩ := by
  rw [require, met]
  rfl

theorem require_error {otherwise : Stop} {holds : Bool} (unmet : holds = false) :
    (require holds otherwise : Checked C Unit) state = ⟨false, .error otherwise⟩ := by
  rw [require, unmet]
  rfl

theorem number_ok {limit value : Nat} (small : value < limit) :
    (number limit value : Checked C Nat) state = ⟨false, .ok (value, state)⟩ := by
  simp [number, small, Nat.mod_eq_of_lt small]

end Steps

end Checked

/-- A checked outcome is the value of the partial function with a state that belongs to its source. -/
def Agrees {C S A : Type} (belongs : C → S → Prop) : Except Stop (A × C) → Option (A × S) → Prop
  | .ok (value, state), some (expected, source) => value = expected ∧ belongs state source
  | .error .died, none => True
  | _, _ => False

/-- The computation agrees with the partial function where the numbers fit, and elsewhere some number
is too large. -/
def Follows {C S A : Type} (belongs : C → S → Prop) (checked : Checked C A)
    (plain : S → Option (A × S)) (fits : S → Prop) : Prop :=
  ∀ state source, belongs state source →
    (fits source → (checked state).wrapped = false ∧
      Agrees belongs (checked state).outcome (plain source)) ∧
    (¬ fits source → (checked state).wrapped = true)

namespace Follows

variable {C S A B : Type} {belongs : C → S → Prop} {checked : Checked C A}
  {plain : S → Option (A × S)} {fits : S → Prop}

theorem value (result : A) :
    Follows belongs (pure result) (fun source => some (result, source)) fun _ => True := by
  intro state source related
  exact ⟨fun _ => ⟨rfl, rfl, related⟩, fun absurd => (absurd trivial).elim⟩

theorem died : Follows belongs (Checked.stop .died : Checked C A) (fun _ => none) fun _ => True := by
  intro state source related
  exact ⟨fun _ => ⟨rfl, trivial⟩, fun absurd => (absurd trivial).elim⟩

/-- A number fits when it is below the limit of its type. -/
theorem number (limit value : Nat) : Follows belongs (Checked.number limit value)
    (fun source => some (value, source)) fun _ => value < limit := by
  intro state source related
  constructor
  · intro fits
    exact ⟨by simp [Checked.number, fits], Nat.mod_eq_of_lt fits, related⟩
  · intro large
    simpa [Checked.number] using Nat.le_of_not_lt large

/-- The rest of a computation only matters after a value that fits. -/
theorem bind_produced {next : A → Checked C B} {plainNext : A → S → Option (B × S)}
    {fitsNext : A → S → Prop} (first : Follows belongs checked plain fits)
    (second : ∀ result source later, plain source = some (result, later) →
      Follows belongs (next result) (plainNext result) (fitsNext result)) :
    Follows belongs (checked >>= next)
      (fun source => (plain source).bind fun (result, source) => plainNext result source)
      (fun source => fits source ∧
        ∀ result later, plain source = some (result, later) → fitsNext result later) := by
  intro state source related
  obtain ⟨agrees, wraps⟩ := first state source related
  have unfolded : (checked >>= next) state = (checked state).bind' fun pair => next pair.1 pair.2 :=
    rfl
  rw [unfolded]
  by_cases fitting : fits source
  · obtain ⟨calm, agreed⟩ := agrees fitting
    cases expected : plain source with
    | none =>
      rw [expected] at agreed
      cases outcome : (checked state).outcome with
      | error stopped =>
        rw [outcome] at agreed
        cases stopped with
        | outside => exact agreed.elim
        | died => simp [Run.bind', outcome, calm, Agrees, fitting, expected]
      | ok pair =>
        rw [outcome] at agreed
        exact agreed.elim
    | some pair =>
      obtain ⟨same, source'⟩ := pair
      rw [expected] at agreed
      cases outcome : (checked state).outcome with
      | error stopped =>
        rw [outcome] at agreed
        cases stopped <;> exact agreed.elim
      | ok pair =>
        obtain ⟨result, state'⟩ := pair
        rw [outcome] at agreed
        obtain ⟨rfl, related'⟩ := agreed
        have later := second result source source' expected state' source' related'
        simpa [Run.bind', outcome, calm, fitting, expected] using later
  · have wrapped := wraps fitting
    refine ⟨fun both => absurd both.1 fitting, fun _ => ?_⟩
    cases outcome : (checked state).outcome <;> simp [Run.bind', outcome, wrapped]

theorem bind {next : A → Checked C B} {plainNext : A → S → Option (B × S)}
    {fitsNext : A → S → Prop} (first : Follows belongs checked plain fits)
    (second : ∀ result, Follows belongs (next result) (plainNext result) (fitsNext result)) :
    Follows belongs (checked >>= next)
      (fun source => (plain source).bind fun (result, source) => plainNext result source)
      (fun source => fits source ∧
        ∀ result later, plain source = some (result, later) → fitsNext result later) :=
  bind_produced first fun result _ _ _ => second result

/-- A step that always gives the same value leaves the source. -/
theorem fixed {value : A} {next : A → Checked C B} {plainNext : S → Option (B × S)}
    {fitsNext : S → Prop} (first : Follows belongs checked (fun source => some (value, source)) fits)
    (second : Follows belongs (next value) plainNext fitsNext) :
    Follows belongs (checked >>= next) plainNext (fun source => fits source ∧ fitsNext source) := by
  have both := @bind_produced C S A B belongs checked _ fits next (fun _ => plainNext)
    (fun _ => fitsNext) first fun result source later produced => by
      cases produced
      exact second
  intro state source related
  simpa using both state source related

/-- Two descriptions of the partial function are the same where the state belongs to a source. -/
theorem congr {other : S → Option (A × S)} {otherFits : S → Prop}
    (follows : Follows belongs checked plain fits)
    (same : ∀ state source, belongs state source → fits source → plain source = other source)
    (alike : ∀ state source, belongs state source → (fits source ↔ otherFits source)) :
    Follows belongs checked other otherFits := by
  intro state source related
  obtain ⟨agrees, wraps⟩ := follows state source related
  rw [← alike state source related]
  exact ⟨fun fitting => same state source related fitting ▸ agrees fitting, wraps⟩

/-- Where the numbers fit, a value of the partial function is returned. -/
theorem returns (follows : Follows belongs checked plain fits) {state : C} {source later : S}
    {result : A} (related : belongs state source) (fitting : fits source)
    (expected : plain source = some (result, later)) :
    ∃ state', checked state = ⟨false, .ok (result, state')⟩ ∧ belongs state' later := by
  obtain ⟨calm, agreed⟩ := (follows state source related).1 fitting
  rw [expected] at agreed
  cases run : checked state with
  | mk wrapped outcome =>
    rw [run] at agreed calm
    cases outcome with
    | error stopped => cases stopped <;> exact agreed.elim
    | ok pair =>
      obtain ⟨rfl, related'⟩ := agreed
      exact ⟨pair.2, by rw [← calm], related'⟩

section

variable (follows : Follows belongs checked plain fits)
include follows

theorem dies {state : C} {source : S} (related : belongs state source) (fitting : fits source)
    (expected : plain source = none) :
    checked state = ⟨false, .error .died⟩ := by
  obtain ⟨calm, agreed⟩ := (follows state source related).1 fitting
  rw [expected] at agreed
  cases run : checked state with
  | mk wrapped outcome =>
    rw [run] at agreed calm
    cases outcome with
    | error stopped =>
      cases stopped with
      | outside => exact agreed.elim
      | died => rw [← calm]
    | ok pair => exact agreed.elim

/-- Where the numbers fit, the computation returns when the partial function has a value. -/
theorem returned_eq {state : C} {source : S} (related : belongs state source)
    (fitting : fits source) :
    (checked state).returned = (plain source).isSome := by
  cases expected : plain source with
  | none =>
    rw [follows.dies related fitting expected]
    rfl
  | some pair =>
    obtain ⟨later, run, _⟩ := @returns _ _ _ _ _ _ _ follows state source pair.2 pair.1 related
      fitting expected
    rw [run]
    rfl

/-- A computation is safe exactly where its numbers fit. -/
theorem safe_iff {state : C} {source : S} (related : belongs state source) :
    (checked state).Safe ↔ fits source := by
  obtain ⟨agrees, wraps⟩ := follows state source related
  constructor
  · intro safe
    by_contra large
    rw [safe.1] at wraps
    exact Bool.noConfusion (wraps large)
  · intro fitting
    obtain ⟨calm, agreed⟩ := agrees fitting
    refine ⟨calm, ?_⟩
    rw [Run.outside]
    split
    · rename_i outside
      rw [outside] at agreed
      cases expected : plain source <;> (rw [expected] at agreed; exact agreed.elim)
    · rfl

end

end Follows

end Ucollect.Library
