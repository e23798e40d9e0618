import Ucollect.Construction.Soxy.Connection

namespace Ucollect.Soxy
open List

section Contracts

variable {S : Type}

/-- This is what zlib promises for a stream, where `conveys` says that the output has all of the input.
Output space is left when everything came out. Input is left then only behind the end of the stream,
and nothing comes after it. -/
structure Contract (codec : Codec S) (conveys : Bytes → Bytes → Prop) where
  follows : S → Bytes → Bytes → Prop
  ended : S → Prop
  start : follows codec.start [] []
  empty : conveys [] []
  step : ∀ {stream taken emitted input answer}, follows stream taken emitted →
    codec.call stream input = some answer →
    follows answer.state (taken ++ input.take answer.consumed) (emitted ++ answer.output)
  complete : ∀ {stream taken emitted input answer}, follows stream taken emitted → input ≠ [] →
    codec.call stream input = some answer → answer.output.length < compressionBuffsize →
    conveys (taken ++ input) (emitted ++ answer.output)
  behind : ∀ {stream taken emitted input answer}, follows stream taken emitted →
    codec.call stream input = some answer → answer.output.length < compressionBuffsize →
    answer.consumed < input.length → ended answer.state
  last : ∀ {stream taken emitted}, follows stream taken emitted → ended stream →
    ∀ more, conveys (taken ++ more) emitted
  silent : ∀ {stream input answer}, ended stream → codec.call stream input = some answer →
    answer.output = [] ∧ ended answer.state

/-- A call that consumes all of its input leaves output space. -/
def Roomy (codec : Codec S) (stream : S) (input : Bytes) : Prop :=
  ∀ answer, codec.call stream input = some answer → input.length ≤ answer.consumed →
    answer.output.length < compressionBuffsize

variable {codec : Codec S} {conveys : Bytes → Bytes → Prop} {d final : Direction S}

/-- The stream is where the taken and the produced bytes say, or it is behind its end. -/
def Contract.At (contract : Contract codec conveys) (stream : S) (taken produced : Bytes) : Prop :=
  contract.follows stream taken produced ∨
    contract.ended stream ∧ ∀ more, conveys (taken ++ more) produced

/-- Everything that was taken is produced. -/
structure Contract.Settled (contract : Contract codec conveys) (d : Direction S) : Prop where
  conveys : conveys d.taken d.produced
  at_end : contract.At d.stream d.taken d.produced

/-- The call is noted before its answer is known. -/
def Direction.called (d : Direction S) (input : Bytes) : Direction S :=
  { d with calls := d.calls ++ [(d.stream, input)] }

def Direction.answered (d : Direction S) (input : Bytes) (answer : Answer S) : Direction S :=
  { d.called input with
    stream := answer.state
    buffer := d.buffer ++ answer.output }

/-- These are the ways through the loop. -/
inductive Pumped (codec : Codec S) : Direction S → Bytes → Exit → Direction S → Prop where
  | drained (d : Direction S) : Pumped codec d [] .drained d
  | invalid {d : Direction S} {input : Bytes} (given : input ≠ [])
      (failed : codec.call d.stream input = none) :
      Pumped codec d input .invalid { d.called input with deleted := true, invalid := true }
  | stuck {d : Direction S} {input : Bytes} {answer : Answer S} (given : input ≠ [])
      (called : codec.call d.stream input = some answer) (nothing : answer.output = []) :
      Pumped codec d input .stuck (d.answered input answer)
  | more {d final : Direction S} {input : Bytes} {answer : Answer S} {exit : Exit}
      (given : input ≠ []) (called : codec.call d.stream input = some answer)
      (output : answer.output ≠ [])
      (later : Pumped codec (d.answered input answer) (input.drop answer.consumed) exit final) :
      Pumped codec d input exit final

variable {input : Bytes} {exit : Exit}

theorem Direction.pump_pumped (fuel : Nat) {d : Direction S}
    (ends : d.pump codec fuel input = some (exit, final)) : Pumped codec d input exit final := by
  induction fuel generalizing d input with
  | zero =>
    cases input with
    | nil =>
      cases ends
      exact .drained _
    | cons byte rest => cases ends
  | succ fuel ih =>
    cases input with
    | nil =>
      cases ends
      exact .drained _
    | cons byte rest =>
      simp only [Direction.pump] at ends
      split at ends
      case h_1 failed =>
        cases ends
        exact .invalid nofun failed
      case h_2 answer called =>
        split at ends
        case isTrue nothing =>
          cases ends
          have same : d.answered (byte :: rest) answer =
              { d.called (byte :: rest) with stream := answer.state } := by
            rw [Direction.answered, nothing, append_nil]
            rfl
          exact same ▸ .stuck nofun called nothing
        case isFalse output => exact .more nofun called output (ih ends)

section

variable (pumped : Pumped codec d input exit final)
include pumped

/-- The calls are only added. -/
theorem Pumped.calls : d.calls ⊆ final.calls ∧ (input ≠ [] → (d.stream, input) ∈ final.calls) := by
  induction pumped with
  | drained d => exact ⟨fun _ => id, fun given => absurd rfl given⟩
  | invalid | stuck => exact ⟨fun _ => mem_append_left _, fun _ => mem_append_right _ mem_cons_self⟩
  | more _ _ _ _ ih =>
    constructor
    · exact fun _ member => ih.1 (mem_append_left _ member)
    · exact fun _ => ih.1 (mem_append_right _ mem_cons_self)

/-- A data error is never forgotten, and only a data error ends the loop so. -/
theorem Pumped.valid (valid : final.invalid = false) : d.invalid = false ∧ exit ≠ .invalid := by
  induction pumped with
  | drained | stuck => exact ⟨valid, nofun⟩
  | invalid => cases valid
  | more _ _ _ _ ih => exact ih valid

/-- A stream without data errors gives none. -/
theorem Pumped.invalid_eq (never : ∀ stream input, codec.call stream input ≠ none) :
    final.invalid = d.invalid := by
  induction pumped with
  | drained | stuck => rfl
  | invalid _ failed => exact absurd failed (never _ _)
  | more _ _ _ _ ih => exact ih

end

end Contracts

section Loops

variable {S : Type} {codec : Codec S} {conveys : Bytes → Bytes → Prop} {stream : S}
  {answer : Answer S} {taken produced input : Bytes}

/-- A call that leaves output space has everything out, also behind the end of the stream. -/
theorem Contract.At.call (contract : Contract codec conveys)
    (place : contract.At stream taken produced) (given : input ≠ [])
    (called : codec.call stream input = some answer)
    (room : answer.output.length < compressionBuffsize) :
    conveys (taken ++ input) (produced ++ answer.output) ∧
      contract.At answer.state (taken ++ input) (produced ++ answer.output) := by
  rcases place with follows | ⟨ended, last⟩
  · have next := contract.step follows called
    constructor
    · exact contract.complete follows given called room
    · by_cases rest : answer.consumed < input.length
      · have ended := contract.behind follows called room rest
        refine .inr ⟨ended, fun more => ?_⟩
        have last := contract.last next ended (input.drop answer.consumed ++ more)
        rw [append_assoc, ← append_assoc (input.take _), take_append_drop] at last
        rwa [append_assoc]
      · rw [take_of_length_le (Nat.not_lt.mp rest)] at next
        exact .inl next
  · obtain ⟨nothing, ended⟩ := contract.silent ended called
    rw [nothing, append_nil]
    refine ⟨last input, .inr ⟨ended, fun more => ?_⟩⟩
    rw [append_assoc]
    exact last (input ++ more)

/-- A call with output is not behind the end of the stream. -/
theorem Contract.At.next (contract : Contract codec conveys)
    (place : contract.At stream taken produced)
    (called : codec.call stream input = some answer) (output : answer.output ≠ []) :
    contract.At answer.state (taken ++ input.take answer.consumed) (produced ++ answer.output) := by
  rcases place with follows | ⟨ended, _⟩
  · exact .inl (contract.step follows called)
  · exact absurd (contract.silent ended called).1 output

variable {d final : Direction S} {exit : Exit}

theorem Direction.answered_produced (d : Direction S) (input : Bytes) (answer : Answer S) :
    (d.answered input answer).produced = d.produced ++ answer.output :=
  (append_assoc _ _ _).symm

/-- The loop ends with everything produced where no call fills the buffer with its last input. -/
theorem Pumped.settled (contract : Contract codec conveys) {given : Bytes}
    (pumped : Pumped codec d input exit final) (taken : d.taken = given ++ input)
    (place : contract.At d.stream given d.produced)
    (done : input = [] → conveys d.taken d.produced)
    (roomy : ∀ call ∈ final.calls, Roomy codec call.1 call.2) (valid : exit ≠ .invalid) :
    contract.Settled final := by
  induction pumped generalizing given with
  | drained d =>
    rw [append_nil] at taken
    exact ⟨done rfl, taken ▸ place⟩
  | invalid => exact absurd rfl valid
  | @stuck d input answer some called nothing =>
    have room : answer.output.length < compressionBuffsize := by
      rw [nothing]
      decide
    obtain ⟨whole, after⟩ := place.call contract some called room
    rw [← taken, ← d.answered_produced input] at whole after
    exact ⟨whole, after⟩
  | @more d final input answer exit some called output later ih =>
    have split : given ++ input.take answer.consumed ++ input.drop answer.consumed = d.taken := by
      rw [append_assoc, take_append_drop, taken]
    apply ih split.symm
    · exact d.answered_produced input answer ▸ place.next contract called output
    · intro nothing
      have noted := (Pumped.more some called output later).calls.2 some
      have room := roomy _ noted answer called (drop_eq_nil_iff.mp nothing)
      have whole := (place.call contract some called room).1
      rwa [← taken, ← d.answered_produced input] at whole
    · exact roomy
    · exact valid

end Loops

end Ucollect.Soxy
