import Ucollect.Proof.Uplink.Ordinary

namespace Ucollect.Core
open Library

variable {Z : Type}

/-- An event leads to a good state, or it cannot happen, or the program dies in an accepted way. -/
def Outcome (good : System Z → Prop) (accepted : Death → Prop) : Except Stop (System Z) → Prop
  | .ok system => good system
  | .error .disabled => True
  | .error (.died death) => accepted death

/-- Every event of the run happens in a state that it fits. -/
def System.RunFits (inflater : Inflater Z) (fits : System Z → Event → Prop) (system : System Z) :
    List Event → Prop
  | [] => True
  | event :: events => fits system event ∧ match system.step inflater event with
      | .ok next => next.RunFits inflater fits events
      | .error _ => True

instance runFitsDecidable (inflater : Inflater Z) (fits : System Z → Event → Prop)
    [∀ system event, Decidable (fits system event)] (system : System Z) (events : List Event) :
    Decidable (system.RunFits inflater fits events) :=
  match events with
  | [] => .isTrue trivial
  | event :: events =>
    match result : system.step inflater event with
    | .ok next =>
      have := runFitsDecidable inflater fits next events
      decidable_of_iff (fits system event ∧ next.RunFits inflater fits events)
        (by rw [System.RunFits, result])
    | .error _ => decidable_of_iff (fits system event) (by simp [System.RunFits, result])

variable {fits : System Z → Event → Prop} {system : System Z}

theorem System.RunFits.weaken {inflater : Inflater Z} {weaker : System Z → Event → Prop}
    (enough : ∀ system event, fits system event → weaker system event) {events : List Event}
    (fit : system.RunFits inflater fits events) :
    system.RunFits inflater weaker events := by
  induction events generalizing system with
  | nil => trivial
  | cons event events ih =>
    obtain ⟨fitting, rest⟩ := fit
    refine ⟨enough system event fitting, ?_⟩
    cases result : system.step inflater event with
    | ok next =>
      rw [result] at rest
      exact ih rest
    | error stop => trivial

theorem runFits_always {inflater : Inflater Z} (always : ∀ system event, fits system event)
    (system : System Z) (events : List Event) :
    system.RunFits inflater fits events := by
  induction events generalizing system with
  | nil => trivial
  | cons event events ih =>
    refine ⟨always system event, ?_⟩
    cases system.step inflater event with
    | ok next => exact ih next
    | error stop => trivial

/-- The run ends in a state that passes the test. -/
def reaches (result : Except Stop (System Z)) (test : System Z → Bool) : Bool :=
  match result with
  | .ok system => test system
  | .error _ => false

variable {result : Except Stop (System Z)}

theorem exists_of_reaches {test : System Z → Bool} (passes : reaches result test = true) :
    ∃ system, result = .ok system ∧ test system = true := by
  cases result with
  | ok system => exact ⟨system, rfl, passes⟩
  | error stop => cases passes

/-- The run stops before its last event. -/
def stopOf (result : Except Stop (System Z)) : Option Stop :=
  match result with
  | .ok _ => none
  | .error stop => some stop

theorem eq_of_stopOf {stop : Stop} (stops : stopOf result = some stop) : result = .error stop := by
  cases result with
  | ok system => cases stops
  | error other => rw [Option.some.inj stops]

variable {good left jumps : System Z → Prop} {accepted : Death → Prop} {program : LoopM Z Unit}
  {start : System Z} {inflater : Inflater Z}

theorem outcome_finishEvent
    (meets : Meets (fun system => system = start) program (fun _ => good) (Leaves jumps accepted))
    (signal : accepted .signal) : Outcome good accepted (finishEvent program start) := by
  have ran := meets start rfl
  unfold finishEvent
  split at ran
  case h_1 value final returned =>
    rw [returned]
    exact ran
  case h_2 exit final failed =>
    rw [failed]
    cases exit with
    | jump => exact signal
    | died death => exact ran

/-- The recovery of a jump leads back to the good states. -/
theorem outcome_protected {recovery : Recovery}
    (body : Meets (fun system => system = start) program (fun _ => good) (Leaves left accepted))
    (recovers : Meets left (recover recovery) (fun _ => good) (Leaves jumps accepted))
    (signal : accepted .signal) :
    Outcome good accepted (finishEvent (loopProtect recovery program) start) := by
  refine outcome_finishEvent (?_ : Meets _ _ _ (Leaves jumps accepted)) signal
  apply Meets.handle body
  · intro exit caught
    cases exit with
    | jump => exact recovers
    | died death => simp at caught
  · intro exit system passed leaves
    cases exit with
    | jump => simp at passed
    | died death => exact leaves

/-- Each event between two calls of `uplink_read` has a good outcome. -/
structure IdleCases (inflater : Inflater Z) (good : System Z → Prop) (accepted : Death → Prop)
    (system : System Z) (event : Event) : Prop where
  loopGetNow : ∀ now, event = .loopGetNow now → system.phase = .idle →
    good { system with now := now }
  timeout : ∀ owner world recovery first rest, event = .timeout owner world recovery →
    system.phase = .idle → system.timers.timeouts = first :: rest →
    Outcome good accepted
      (finishEvent (loopProtect recovery (fireTimeout inflater owner first.callback))
        { system with timers := { system.timers with timeouts := rest }, world := world })
  plugin : ∀ owner world recovery, event = .plugin owner world recovery →
    system.phase = .idle →
    Outcome good accepted (finishEvent (loopProtect recovery (runCallback reconnectFromEvent owner))
      (system.withWorld world))
  strayRead : ∀ world recovery, event = .strayRead world recovery → system.phase = .idle →
    Outcome good accepted (finishEvent (loopProtect recovery errReadStray) (system.withWorld world))
  reconfigure : ∀ world commit, event = .reconfigure world commit → system.phase = .idle →
    Outcome good accepted (finishEvent (loopConfigCommit commit) (system.withWorld world))

/-- Each event that can happen in the state has a good outcome. -/
structure StepCases (inflater : Inflater Z) (good : System Z → Prop) (accepted : Death → Prop)
    (system : System Z) (event : Event) : Prop
    extends IdleCases inflater good accepted system event where
  arrive : ∀ bytes, event = .arrive bytes → system.uplink.isOpen = true →
    good { system with socket := { system.socket with unread := system.socket.unread ++ bytes } }
  remoteClose : event = .remoteClose → system.uplink.isOpen = true →
    good { system with socket := { system.socket with closed := true } }
  uplinkRead : event = .uplinkRead → system.phase = .idle →
    good { system with phase := if system.uplink.isOpen then .receiving readLimit else .idle }
  receive : ∀ world recovery limit, event = .receive world recovery →
    system.phase = .receiving (limit + 1) →
    Outcome good accepted (finishEvent (loopProtect recovery (uplinkReceive inflater limit))
      (system.withWorld world))
  handle : ∀ world recovery limit, event = .handle world recovery →
    system.phase = .handling limit →
    Outcome good accepted (finishEvent (loopProtect recovery (uplinkHandle limit))
      (system.withWorld world))

theorem StepCases.outcome {event : Event} (cases : StepCases inflater good accepted system event) :
    Outcome good accepted (system.step inflater event) := by
  unfold System.step
  split
  case h_1 bytes =>
    split
    case isTrue enabled =>
      simp only [Bool.and_eq_true] at enabled
      exact cases.arrive bytes rfl enabled.1
    case isFalse => trivial
  case h_2 =>
    split
    case isTrue opened => exact cases.remoteClose rfl opened
    case isFalse => trivial
  case h_3 now idle => exact cases.loopGetNow now rfl idle
  case h_4 idle => exact cases.uplinkRead rfl idle
  case h_5 world recovery limit phase => exact cases.receive world recovery limit rfl phase
  case h_6 world recovery limit phase => exact cases.handle world recovery limit rfl phase
  case h_7 owner world recovery idle =>
    split
    case h_1 => trivial
    case h_2 first rest pending =>
      split
      · exact cases.timeout owner world recovery first rest rfl idle pending
      · trivial
  case h_8 owner world recovery idle => exact cases.plugin owner world recovery rfl idle
  case h_9 world recovery idle => exact cases.strayRead world recovery rfl idle
  case h_10 world commit idle => exact cases.reconfigure world commit rfl idle
  case h_11 => trivial

theorem Outcome.both {first second : System Z → Prop} (one : Outcome first accepted result)
    (two : Outcome second (fun _ => True) result) :
    Outcome (fun system => first system ∧ second system) accepted result := by
  cases result with
  | ok system => exact ⟨one, two⟩
  | error stop =>
    cases stop with
    | disabled => trivial
    | died death => exact one

theorem Outcome.weaken {weaker : System Z → Prop} (outcome : Outcome good accepted result)
    (finish : ∀ system, good system → weaker system) :
    Outcome weaker accepted result := by
  cases result with
  | ok system => exact finish system outcome
  | error stop =>
    cases stop with
    | disabled => trivial
    | died death => exact outcome

/-- A step that keeps the good states lets every run keep them. -/
theorem run_outcome
    (step : ∀ system event, good system → fits system event →
      Outcome good accepted (system.step inflater event)) (holds : good system)
    {events : List Event} (fit : system.RunFits inflater fits events) :
    Outcome good accepted (system.run inflater events) := by
  induction events generalizing system with
  | nil => exact holds
  | cons event events ih =>
    obtain ⟨fitting, rest⟩ := fit
    have stepped := step system event holds fitting
    rw [System.run]
    cases result : system.step inflater event with
    | ok next =>
      rw [result] at stepped rest
      exact ih stepped rest
    | error stop =>
      rw [result] at stepped
      exact stepped

/-- This stream decoder has nothing to decode. -/
def idleInflater : Inflater Unit where
  reset _ := ()
  inflate _ input _ := ⟨(), input, [], false⟩

def Target.example : Target := ⟨[1], [2], none, none, some [3]⟩

def Recovery.none : Recovery := ⟨.calm, ⟨[], [], Option.none, [], [], false⟩⟩

/-- So many bytes are ready in a turn of the loop. -/
def receiving (amount : Nat) : Event := .receive { World.calm with recv := .ready amount } .none

/-- The uplink is configured with some plugins and connects. -/
def connecting (plugins : List Plugin) : List Event :=
  [.reconfigure .calm ⟨[], [], some .example, plugins, [], false⟩, .loopGetNow 2000,
    .timeout 0 .calm .none]

end Ucollect.Core
