import Ucollect.Proof.Sizes.Keys

/-
This file proves when the sizes of a string and of an activation message fit.
-/

namespace Ucollect.Sizes
open Library Core MemPool List

/-- The length of a string and its terminator fit, and so does its block if the string is complete. -/
def StringFits (machine : Machine) (input : Bytes) : Prop :=
  lengthSize ≤ input.length →
    bigEndian (input.take lengthSize) + lengthSize < machine.limit ∧
      (bigEndian (input.take lengthSize) + lengthSize ≤ input.length →
        bigEndian (input.take lengthSize) + 1 + machine.header + pageSize < machine.limit)

/-- A string that is not complete leaves the input. -/
def stringOf (source : Source) : Option (Option Bytes × Source) :=
  match Core.uplinkParseString source.input with
  | none => some (none, source)
  | some (string, input) => some (some string, ⟨input, source.store⟩)

section Strings

variable {machine : Machine} {message : Bytes} {cursor : Cursor} {source : Source}

theorem tracks_uplinkParseString :
    Tracks message (uplinkParseString machine message) stringOf
      fun source => StringFits machine source.input := by
  intro cursor source related
  have rest := related.rest
  have small := related.small
  have inside := related.inside
  have size : source.input.length = message.length - cursor.position := by
    rw [related.input, length_drop]
  rw [uplinkParseString, Checked.get_bind]
  by_cases short : cursor.rest < lengthSize
  · have empty : stringOf source = some (none, source) := by
      rw [stringOf, Core.uplinkParseString, if_pos (rest ▸ short)]
    rw [if_pos short, empty]
    refine ⟨fun _ => ⟨rfl, rfl, related⟩, fun large => ?_⟩
    exact absurd (fun enough => absurd short (by omega)) large
  · have enough : lengthSize ≤ source.input.length := by omega
    obtain ⟨length, defined⟩ : ∃ length, length = bigEndian (source.input.take lengthSize) :=
      ⟨_, rfl⟩
    rw [if_neg short, Checked.bind_ok (peek_ok related (by omega)), drop_zero, ← defined]
    dsimp only
    by_cases fits : length + lengthSize < machine.limit
    · rw [Checked.bind_ok (sized_ok fits)]
      by_cases missing : cursor.rest < length + lengthSize
      · have broken : stringOf source = some (none, source) := by
          rw [stringOf, Core.uplinkParseString, if_neg (by omega), ← defined]
          rw [if_pos (by omega)]
        rw [if_pos missing, broken]
        refine ⟨fun _ => ⟨rfl, rfl, related⟩, fun large => ?_⟩
        exact absurd (fun _ => ⟨defined ▸ fits, fun whole => by omega⟩) large
      · have whole : length + lengthSize ≤ source.input.length := by omega
        have short' : length + 1 < 2 ^ 32 := by
          have header : lengthSize = 4 := rfl
          omega
        have parsed : stringOf source = some (some ((source.input.drop lengthSize).take length),
            ⟨source.input.drop (length + lengthSize), source.store⟩) := by
          rw [stringOf, Core.uplinkParseString, if_neg (by omega), ← defined]
          rw [if_neg (by omega)]
        rw [if_neg missing, Checked.bind_ok (Checked.number_ok short')]
        by_cases room : length + 1 + machine.header + pageSize < machine.limit
        · refine ⟨fun _ => ?_, fun large => absurd (fun _ => ⟨defined ▸ fits, fun _ => defined ▸ room⟩) large⟩
          obtain ⟨later, allocated, related'⟩ := (tracks_memPoolAlloc (length + 1)).returns related room rfl
          obtain ⟨last, advanced, related''⟩ := @advance_ok machine message later source related' _ whole
          rw [Checked.bind_ok allocated, Checked.bind_ok (peek_ok related' (by omega)),
            Checked.bind_ok (fill_ok (by omega)), Checked.bind_ok (fill_ok (by omega)),
            Checked.bind_ok advanced, parsed]
          exact ⟨rfl, rfl, related''⟩
        · refine ⟨fun all => absurd (defined ▸ (all enough).2 (defined ▸ whole)) room, fun _ => ?_⟩
          exact Checked.bind_wrapped (((tracks_memPoolAlloc (length + 1)) cursor source related).2 room)
    · refine ⟨fun all => ?_, fun _ => ?_⟩
      · exact absurd (defined ▸ (all enough).1) fits
      · apply Checked.bind_wrapped
        simpa [sized, Checked.number] using fits

end Strings

section Activations

/-- The name is followed by the hash and a flag. -/
def afterName : Option Bytes → Source → Option (Activation × Source)
  | none, _ => none
  | some name, source =>
    if source.input.length ≤ hashSize then none
    else some (⟨cString name, source.input.take hashSize,
      source.input[hashSize]? == some (letter 'A')⟩,
      ⟨source.input.drop (hashSize + 1), source.store⟩)

def activationOf (source : Source) : Option (Activation × Source) :=
  (stringOf source).bind fun (name, source) => afterName name source

def activationsOf : Nat → Source → Option (List Activation × Source)
  | 0, source => some ([], source)
  | left + 1, source =>
    (activationOf source).bind fun (activation, source) =>
      (activationsOf left source).bind fun (activations, source) =>
        some (activation :: activations, source)

/-- The strings fit up to the place where the parser stops. -/
def ActivationsFit (machine : Machine) : Nat → Source → Prop
  | 0, _ => True
  | left + 1, source => StringFits machine source.input ∧
      ∀ activation later, activationOf source = some (activation, later) →
        ActivationsFit machine left later

/-- This is the plain `handle_activation`. -/
def handled (source : Source) : Option (List Activation × Source) :=
  (lift readWord32 source).bind fun (amount, source) => activationsOf amount source

/-- The block for the records fits, and the strings do. -/
def PluginsFit (machine : Machine) (amount : Nat) (source : Source) : Prop :=
  amount ≠ 0 → amount * activationSize machine + machine.header + pageSize < machine.limit ∧
    ActivationsFit machine amount source

def ActivationFits (machine : Machine) (source : Source) : Prop :=
  ∀ amount later, lift readWord32 source = some (amount, later) → PluginsFit machine amount later

variable {machine : Machine} {message : Bytes}

theorem activationSize_eq : machine.word + hashSize + 1 ≤ activationSize machine := by
  cases machine <;> simp [Machine.word, activationSize, hashSize]

theorem tracks_parseHash {block start : Nat} (name : Option Bytes)
    (inside : start + activationSize machine ≤ block) :
    Tracks message (parseHash machine message block start name) (afterName name) fun _ => True := by
  have record := @activationSize_eq machine
  intro cursor source related
  refine ⟨fun _ => ?_, fun absurd => (absurd trivial).elim⟩
  unfold parseHash
  rw [Checked.bind_ok (fill_ok (by omega))]
  cases name with
  | none => exact ⟨rfl, trivial⟩
  | some name =>
    have rest := related.rest
    dsimp only
    rw [Checked.get_bind, afterName]
    by_cases short : source.input.length ≤ hashSize
    · rw [Checked.bind_error (Checked.require_error (by simp; omega)), if_pos short]
      exact ⟨rfl, trivial⟩
    · obtain ⟨later, moved, related'⟩ :=
        @advance_ok machine message cursor source related hashSize (by omega)
      have flagged : 0 + 1 ≤ (source.input.drop hashSize).length := by
        rw [length_drop]
        omega
      obtain ⟨last, moved', related''⟩ := @advance_ok machine message later _ related' 1 flagged
      rw [Checked.bind_ok (Checked.require_ok (by simp; omega)),
        Checked.bind_ok (peek_ok related (by omega)), Checked.bind_ok (fill_ok (by omega)),
        Checked.bind_ok moved, Checked.bind_ok (peek_ok related' flagged),
        Checked.bind_ok (fill_ok (by omega)), Checked.bind_ok moved', if_neg short]
      have long : hashSize < source.input.length := by omega
      refine ⟨rfl, ?_, by simpa [drop_drop] using related''⟩
      rw [drop_zero, drop_zero, drop_eq_getElem_cons long, take_succ_cons, take_zero,
        List.getElem?_eq_getElem long]
      simp

theorem tracks_parseActivation {block index : Nat}
    (inside : (index + 1) * activationSize machine ≤ block) :
    Tracks message (parseActivation machine message block index) activationOf
      fun source => StringFits machine source.input := by
  have start : index * activationSize machine + activationSize machine ≤ block := by
    rw [Nat.succ_mul] at inside
    exact inside
  exact (Follows.bind tracks_uplinkParseString fun name => tracks_parseHash name start).congr
    (fun _ _ _ _ => rfl) fun _ _ _ => by simp

/-- The block has room for the activations that are left. -/
theorem tracks_parseActivations {block amount left : Nat} (few : left ≤ amount)
    (room : amount * activationSize machine ≤ block) :
    Tracks message (parseActivations machine message block amount left) (activationsOf left)
      (ActivationsFit machine left) := by
  induction left with
  | zero => exact Follows.value []
  | succ left ih =>
    have inside : (amount - (left + 1) + 1) * activationSize machine ≤ block := by
      refine (Nat.mul_le_mul_right _ ?_).trans room
      omega
    have later := ih (by omega)
    exact (Follows.bind (tracks_parseActivation inside) fun activation =>
      Follows.bind later fun activations => Follows.value (activation :: activations)).congr
        (fun _ _ _ _ => rfl) fun _ _ _ => by simp [ActivationsFit]

theorem tracks_parsePlugins (amount : Nat) :
    Tracks message (parsePlugins machine message amount) (activationsOf amount)
      (PluginsFit machine amount) := by
  rw [parsePlugins]
  by_cases empty : amount = 0
  · subst empty
    rw [if_pos rfl]
    exact (Follows.value []).congr (fun _ _ _ _ => rfl) fun _ _ _ => by simp [PluginsFit]
  · have records := @tracks_parseActivations machine message (amount * activationSize machine)
      amount amount le_rfl le_rfl
    rw [if_neg empty]
    have allocated : Tracks message (memPoolAlloc machine (amount * activationSize machine) >>=
        fun block => parseActivations machine message block amount amount) (activationsOf amount) _ :=
      Follows.fixed (tracks_memPoolAlloc _) records
    have sizes : Tracks message (sized machine (amount * activationSize machine) >>= fun size =>
        memPoolAlloc machine size >>= fun block =>
          parseActivations machine message block amount amount) (activationsOf amount) _ :=
      Follows.fixed (tracks_sized _) allocated
    refine sizes.congr (fun _ _ _ _ => rfl) fun _ _ _ => ?_
    simp only [PluginsFit, ne_eq, empty, not_false_eq_true, true_imp_iff]
    exact and_iff_right_of_imp fun both => by omega

theorem tracks_handleActivation :
    Tracks message (handleActivation machine message) handled (ActivationFits machine) := by
  have word : lift readWord32 = fun source =>
      (lift (cut 4) source).map fun front => (bigEndian front.1, front.2) := by
    funext source
    rw [lift, lift, readWord32]
    cases cut 4 source.input <;> rfl
  refine (Follows.bind (tracks_takeBytes 4) fun bytes => tracks_parsePlugins (bigEndian bytes)).congr
    ?_ ?_
  · intro cursor source related fits
    rw [handled, word]
    dsimp only
    cases lift (cut 4) source <;> rfl
  · intro cursor source related
    rw [ActivationFits, word]
    dsimp only
    rcases lift (cut 4) source with _ | ⟨bytes, later⟩ <;> simp

end Activations

end Ucollect.Sizes
