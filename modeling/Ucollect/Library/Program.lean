import Mathlib.Tactic

/-
This file contains rules of pre- and postconditions for programs that change a state and may
leave by an exit.
-/

namespace Ucollect.Library

/-- A program changes a state and returns a value or leaves by an exit. -/
abbrev Program (E S : Type) := ExceptT E (StateM S)

variable {E S A B : Type}

/-- This is the outcome of a program that starts in the state. -/
def Program.eval (program : Program E S A) (state : S) : Except E A × S :=
  StateT.run (ExceptT.run program) state

/-- The condition decides whether the program runs. -/
def Program.when (condition : Bool) (program : Program E S Unit) : Program E S Unit :=
  if condition then program else pure ()

/-- The program runs once for each item. -/
def Program.each {I : Type} (items : List I) (body : I → Program E S Unit) : Program E S Unit :=
  match items with
  | [] => pure ()
  | item :: rest => body item >>= fun _ => Program.each rest body

/-- The handler continues where the program leaves by a caught exit. -/
def Program.handle (program handler : Program E S A) (caught : E → Bool) : Program E S A :=
  ExceptT.mk fun state => match program.eval state with
    | (.ok value, middle) => (.ok value, middle)
    | (.error exit, middle) =>
      if caught exit then handler.eval middle else (.error exit, middle)

/-- Every run from the precondition returns to the postcondition or leaves in the exit condition. -/
def Meets (before : S → Prop) (program : Program E S A) (after : A → S → Prop)
    (leaves : E → S → Prop) : Prop :=
  ∀ state, before state → match program.eval state with
    | (.ok value, final) => after value final
    | (.error exit, final) => leaves exit final

@[simp] theorem eval_pure (value : A) (state : S) :
    Program.eval (pure value : Program E S A) state = (.ok value, state) := rfl

@[simp] theorem eval_throw (exit : E) (state : S) :
    Program.eval (throw exit : Program E S A) state = (.error exit, state) := rfl

@[simp] theorem eval_get (state : S) :
    Program.eval (get : Program E S S) state = (.ok state, state) := rfl

@[simp] theorem eval_set (next state : S) :
    Program.eval (set next : Program E S PUnit) state = (.ok ⟨⟩, next) := rfl

@[simp] theorem eval_modify (update : S → S) (state : S) :
    Program.eval (modify update : Program E S PUnit) state = (.ok ⟨⟩, update state) := rfl

theorem eval_bind (program : Program E S A) (next : A → Program E S B) (state : S) :
    Program.eval (program >>= next) state = match program.eval state with
      | (.ok value, middle) => (next value).eval middle
      | (.error exit, middle) => (.error exit, middle) := by
  simp only [Program.eval, bind, ExceptT.bind, ExceptT.mk, ExceptT.run, StateT.run, StateT.bind]
  cases program state with
  | mk result middle =>
    cases result with
    | ok value => rfl
    | error exit => rfl

theorem eval_handle (program handler : Program E S A) (caught : E → Bool) (state : S) :
    (program.handle handler caught).eval state = match program.eval state with
      | (.ok value, middle) => (.ok value, middle)
      | (.error exit, middle) =>
        if caught exit then handler.eval middle else (.error exit, middle) := rfl

variable {before : S → Prop} {leaves : E → S → Prop} {program : Program E S A}
  {after : A → S → Prop}

theorem meets_pure {value : A} (holds : ∀ state, before state → after value state) :
    Meets before (pure value : Program E S A) after leaves := holds

theorem meets_throw {exit : E} (holds : ∀ state, before state → leaves exit state) :
    Meets before (throw exit : Program E S A) after leaves := holds

theorem meets_modify {update : S → S} {after : PUnit → S → Prop}
    (holds : ∀ state, before state → after ⟨⟩ (update state)) :
    Meets before (modify update : Program E S PUnit) after leaves := holds

/-- The rest of the program starts where the first part returns. -/
theorem Meets.bind {middle : A → S → Prop} {next : A → Program E S B} {after : B → S → Prop}
    (first : Meets before program middle leaves)
    (rest : ∀ value, Meets (middle value) (next value) after leaves) :
    Meets before (program >>= next) after leaves := by
  intro state holds
  have started := first state holds
  rw [eval_bind]
  cases run : program.eval state with
  | mk result final =>
    rw [run] at started
    cases result with
    | ok value => exact rest value final started
    | error exit => exact started

/-- A program that reads the state knows the state it reads. -/
theorem meets_get {next : S → Program E S B} {after : B → S → Prop}
    (rest : ∀ state, before state → Meets (fun current => current = state) (next state) after
      leaves) :
    Meets before (get >>= next) after leaves := by
  intro state holds
  exact rest state holds state rfl

/-- The specification of each single start is a specification. -/
theorem meets_pointwise
    (each : ∀ state, before state → Meets (fun current => current = state) program after leaves) :
    Meets before program after leaves :=
  fun state holds => each state holds state rfl

theorem Meets.start {state : S} (meets : Meets before program after leaves)
    (holds : before state) : Meets (fun current => current = state) program after leaves := by
  intro current stands
  rw [stands]
  exact meets state holds

theorem Meets.weaken {weaker : S → Prop} {stronger : A → S → Prop} {exits : E → S → Prop}
    (meets : Meets before program stronger exits) (start : ∀ state, weaker state → before state)
    (finish : ∀ value state, stronger value state → after value state)
    (exit : ∀ exit state, exits exit state → leaves exit state) :
    Meets weaker program after leaves := by
  intro state holds
  have ran := meets state (start state holds)
  cases run : program.eval state with
  | mk result final =>
    rw [run] at ran
    cases result with
    | ok value => exact finish value final ran
    | error left => exact exit left final ran

theorem meets_when {condition : Bool} {program : Program E S Unit} {after : Unit → S → Prop}
    (runs : condition = true → Meets before program after leaves)
    (skips : condition = false → ∀ state, before state → after () state) :
    Meets before (Program.when condition program) after leaves := by
  cases condition with
  | true => exact runs rfl
  | false => exact skips rfl

/-- A body that keeps the invariant keeps it for any number of items. -/
theorem meets_each {I : Type} {items : List I} {body : I → Program E S Unit}
    (each : ∀ item ∈ items, Meets before (body item) (fun _ => before) leaves) :
    Meets before (Program.each items body) (fun _ => before) leaves := by
  induction items with
  | nil => exact meets_pure fun _ holds => holds
  | cons item rest ih =>
    apply Meets.bind (each item List.mem_cons_self)
    intro _
    exact ih fun item member => each item (List.mem_cons_of_mem _ member)

/-- A caught exit continues with the handler. -/
theorem Meets.handle {handler : Program E S A} {caught : E → Bool} {exits : E → S → Prop}
    (meets : Meets before program after exits)
    (handles : ∀ exit, caught exit = true → Meets (exits exit) handler after leaves)
    (passes : ∀ exit state, caught exit = false → exits exit state → leaves exit state) :
    Meets before (program.handle handler caught) after leaves := by
  intro state holds
  have ran := meets state holds
  rw [eval_handle]
  cases run : program.eval state with
  | mk result final =>
    rw [run] at ran
    cases result with
    | ok value => exact ran
    | error exit =>
      cases catches : caught exit with
      | true => simpa [catches] using handles exit catches final ran
      | false => simpa [catches] using passes exit final catches ran

/-- Two postconditions of one program hold together. -/
theorem Meets.both {before₁ before₂ : S → Prop} {after₁ after₂ : A → S → Prop}
    {leaves₁ leaves₂ : E → S → Prop} (first : Meets before₁ program after₁ leaves₁)
    (second : Meets before₂ program after₂ leaves₂) :
    Meets (fun state => before₁ state ∧ before₂ state) program
      (fun value state => after₁ value state ∧ after₂ value state)
      (fun exit state => leaves₁ exit state ∧ leaves₂ exit state) := by
  intro state holds
  have one := first state holds.1
  have two := second state holds.2
  cases run : program.eval state with
  | mk result final =>
    rw [run] at one two
    cases result with
    | ok value => exact ⟨one, two⟩
    | error exit => exact ⟨one, two⟩

end Ucollect.Library
