import Ucollect.Proof.Fwup.Configuration

/-
This file proves that the kernel has the sets of the configuration when no command is waiting.
-/

namespace Ucollect.Fwup
open Library Diffstore List Option

section Condition

/-- This is the list that the kernel gives while the message is handled. -/
def Router.existing (ipset : Ipset) (router : Router) (message : Message) (timing : Timing) :
    Existing :=
  match communicate timing.walk router.user message with
  | none => fun _ => false
  | some reaction =>
    match (router.child.enqueue reaction.early).execute ipset.run timing.pace with
    | none => fun _ => false
    | some child => setExists child.now

/-- The kernel is the one after all commands that are waiting. -/
def Ipset.Suits (ipset : Ipset) (existing : Existing) (kernel : Kernel) (user : UserData) :
    Message → Prop
  | .config config =>
    user.configVersion ≠ config.version →
      ipset.SetsFit existing kernel user.sets config.newSets
  | .version configVersion name epoch _ => OfferFits kernel user configVersion name epoch
  | .diff configVersion name full epoch fromVersion _ data =>
    ipset.UpdateFits existing kernel user configVersion name full epoch fromVersion data
  | .reload => ipset.ReloadFits existing kernel user
  | .other => True

/-- The child may execute a command at any time. -/
def Router.Suits (ipset : Ipset) (router : Router) : Event → Prop
  | .execute => True
  | .receive message timing =>
    ∀ kernel ∈ router.child.settle ipset.run,
      ipset.Suits (router.existing ipset message timing) kernel router.user message

/-- Every event of the run suits the router that it finds. -/
def Router.Orderly (ipset : Ipset) : Router → List Event → Prop
  | _, [] => True
  | router, event :: events =>
    router.Suits ipset event ∧
      match router.step ipset event with
      | .error _ => True
      | .ok next => next.Orderly ipset events

end Condition

section Runs

variable {ipset : Ipset} {router : Router} {kernel : Kernel} {existing : Existing}
  {message : Message} {timing : Timing} {event : Event} {events : List Event}

/-- The commands that are waiting lead to the sets of the configuration. -/
def Router.Kept (ipset : Ipset) (router : Router) : Prop :=
  ∃ kernel, router.child.settle ipset.run = some kernel ∧ Tracks ipset kernel router.user.sets

theorem kept_start (ipset : Ipset) : Router.start.Kept ipset :=
  ⟨Kernel.empty, rfl, nodup_nil, nofun, fun _ _ => rfl⟩

/-- The reaction to a message that suits leads from sets to sets. -/
theorem communicate_tracks {user : UserData} (tracks : Tracks ipset kernel user.sets)
    (suits : ipset.Suits existing kernel user message) :
    ∃ reaction middle after commands requests last,
      communicate timing.walk user message = some reaction ∧
      runAll ipset.run kernel reaction.early = some middle ∧
      reaction.late existing = some (after, commands, requests) ∧
      runAll ipset.run middle commands = some last ∧ Tracks ipset last after.sets := by
  cases message with
  | config config =>
    by_cases same : user.configVersion = config.version
    · refine ⟨.lately fun _ => some (user, [], versionAsk user.sets), kernel, user, [], _, kernel, ?_,
        rfl, rfl, rfl, tracks⟩
      rw [communicate, configParse, if_pos same]
    · exact configParse_tracks timing.complete tracks same (suits same)
  | version configVersion name epoch version =>
    obtain ⟨after, requests, received, tracked⟩ :=
      @versionReceived_tracks ipset kernel user name epoch version configVersion tracks suits
    refine ⟨_, kernel, after, [], requests, kernel, rfl, rfl, ?_, rfl, tracked⟩
    simp only [Reaction.lately, received, bind_eq_bind, bind_some, Option.pure_def]
  | diff configVersion name full epoch fromVersion toVersion data =>
    obtain ⟨after, commands, requests, last, received, ran, tracked⟩ :=
      @diffReceived_tracks ipset existing kernel user name epoch fromVersion toVersion data
        configVersion full tracks suits
    exact ⟨_, kernel, after, commands, requests, last, rfl, rfl, received, ran, tracked⟩
  | reload =>
    obtain ⟨commands, last, reloaded, ran, tracked⟩ :=
      setsReload_tracks timing.complete tracks suits
    refine ⟨_, kernel, user, commands, [], last, rfl, rfl, ?_, ran, tracked⟩
    simp only [Reaction.lately, reloaded, bind_eq_bind, bind_some, Option.pure_def]
  | other => exact ⟨_, kernel, user, [], [], kernel, rfl, rfl, rfl, rfl, tracks⟩

section

variable (kept : router.Kept ipset)
include kept

theorem receive_kept (suits : router.Suits ipset (.receive message timing)) :
    ∃ next, router.receive ipset message timing = .ok next ∧ next.Kept ipset := by
  obtain ⟨kernel, settled, tracks⟩ := kept
  obtain ⟨reaction, middle, after, commands, requests, last, reacted, early, late, ran, tracked⟩ :=
    @communicate_tracks ipset kernel (router.existing ipset message timing) message timing
      router.user tracks (suits kernel settled)
  have enqueued : (router.child.enqueue reaction.early).settle ipset.run = some middle := by
    rw [settle_enqueue, settled, bind_some, early]
  obtain ⟨child, executed, settledChild⟩ := execute_of_settle enqueued timing.pace
  have listed : router.existing ipset message timing = setExists child.now := by
    rw [Router.existing, reacted]
    simp only [executed]
  rw [listed] at late
  refine ⟨⟨after, child.enqueue commands, router.sent ++ requests⟩, ?_, last, ?_, tracked⟩
  · rw [Router.receive, reacted]
    simp only [executed, late]
  · rw [settle_enqueue, settledChild, bind_some, ran]

theorem step_kept (suits : router.Suits ipset event) :
    ∃ next, router.step ipset event = .ok next ∧ next.Kept ipset := by
  cases event with
  | execute =>
    obtain ⟨kernel, settled, tracks⟩ := kept
    obtain ⟨child, executed, settledChild⟩ := execute_of_settle settled 1
    refine ⟨{ router with child }, ?_, kernel, settledChild, tracks⟩
    rw [Router.step, Router.execute, executed]
  | receive message timing => exact receive_kept kept suits

/-- Every orderly run keeps the kernel on its way to the sets. -/
theorem run_kept (orderly : router.Orderly ipset events) (count : Nat) :
    ∃ next, router.run ipset (events.take count) = .ok next ∧ next.Kept ipset := by
  induction events generalizing router count with
  | nil =>
    rw [take_nil]
    exact ⟨router, rfl, kept⟩
  | cons event events ih =>
    cases count with
    | zero => exact ⟨router, rfl, kept⟩
    | succ count =>
      obtain ⟨suits, rest⟩ := orderly
      obtain ⟨next, stepped, nextKept⟩ := step_kept kept suits
      rw [stepped] at rest
      obtain ⟨last, ran, lastKept⟩ := ih nextKept rest count
      refine ⟨last, ?_, lastKept⟩
      rw [take_succ_cons, Router.run, foldlM_cons, stepped]
      exact ran

end

end Runs

section Decisions

variable {ipset : Ipset}

instance {name : Name} {type : SetType} {addr : Bytes} : Decidable (ipset.Accepts name type addr) :=
  inferInstanceAs (Decidable (_ ∧ _ ∧ ∀ entry ∈ type.entriesOf addr, _))

instance decidableFits {name : Name} {type : SetType} {maxSize : Nat} :
    ∀ (changes : List (Change Bytes)) (trie : Finset Bytes),
      Decidable (ipset.Fits name type maxSize trie changes)
  | [], _ => isTrue trivial
  | change :: changes, trie =>
    have : Decidable (ipset.Fits name type maxSize (change.apply trie) changes) :=
      decidableFits changes _
    inferInstanceAs (Decidable ((_ ∧ (change.add = true → _ ∧ _)) ∧ _))

instance {set : IpSet} {maxSize : Nat} {trie : Finset Bytes} {data : Bytes} :
    Decidable (ipset.DiffFits set maxSize trie data) :=
  match found : diffChanges data.length data with
  | none => isFalse (by rw [Ipset.DiffFits, found]; exact id)
  | some changes =>
    decidable_of_iff (ipset.Fits set.name set.type maxSize trie changes)
      (by rw [Ipset.DiffFits, found])

instance {existing : Existing} {kernel : Kernel} {set : IpSet} :
    Decidable (ipset.Replaceable existing kernel set) :=
  inferInstanceAs (Decidable (_ ∧ _ ∧ _ ∧ _))

instance {kernel : Kernel} {set : IpSet} : Decidable (Mirrored kernel set) :=
  inferInstanceAs (Decidable (_ = true))

instance {existing : Existing} {kernel : Kernel} {set : IpSet} {full : Bool}
    {epoch fromVersion : Nat} {data : Bytes} :
    Decidable (ipset.SetFits existing kernel set full epoch fromVersion data) :=
  inferInstanceAs (Decidable (if full then _ ∧ _ else _ → _ ∧ (_ → _)))

instance {existing : Existing} {kernel : Kernel} {olds news : List IpSet} :
    Decidable (ipset.SetsFit existing kernel olds news) :=
  have (set : IpSet) : Decidable
      (match priorOf olds set with
      | none =>
        existing set.name = false ∧
          ipset.creatable set.name set.type.desc set.type.family set.hashSize set.maxSize = true
      | some old =>
        old.state = .valid → set.resized old = true →
          ipset.Replaceable existing kernel set ∧
            (set.type.mirror old.store.trie).card ≤ set.maxSize) :=
    match priorOf olds set with
    | none => inferInstanceAs (Decidable (_ ∧ _))
    | some _ => inferInstanceAs (Decidable (_ → _ → _ ∧ _))
  List.decidableBAll _ news

instance {existing : Existing} {kernel : Kernel} {user : UserData} :
    (message : Message) → Decidable (ipset.Suits existing kernel user message)
  | .config _ => inferInstanceAs (Decidable (_ → _))
  | .version _ name epoch _ =>
    inferInstanceAs (Decidable (_ → ∀ set ∈ user.sets, set.name = name →
      epoch = set.store.epoch → _))
  | .diff _ name _ _ _ _ _ =>
    inferInstanceAs (Decidable (_ → ∀ set ∈ user.sets, set.name = name → _))
  | .reload => inferInstanceAs (Decidable (∀ set ∈ user.sets, _ ∧ _))
  | .other => isTrue trivial

instance {router : Router} : (event : Event) → Decidable (router.Suits ipset event)
  | .execute => isTrue trivial
  | .receive _ _ => inferInstanceAs (Decidable (∀ kernel ∈ router.child.settle ipset.run, _))

instance decidableOrderly : (events : List Event) → (router : Router) →
    Decidable (router.Orderly ipset events)
  | [], _ => isTrue trivial
  | event :: events, router =>
    have : Decidable
        (match router.step ipset event with
        | .error _ => True
        | .ok next => next.Orderly ipset events) :=
      match router.step ipset event with
      | .error _ => isTrue trivial
      | .ok next => decidableOrderly events next
    inferInstanceAs (Decidable (_ ∧ _))

end Decisions

section Samples

def firstService : Bytes := [10, 0, 0, 1, 0, 53]
def secondService : Bytes := [10, 0, 0, 2, 0, 53]

/-- The child executes nothing before the look. -/
def slow : Timing where
  pace := 0
  walk := fun _ trie =>
    if trie = {firstService, secondService} then [firstService, secondService] else trie.sort
  complete := by
    intro _ trie
    split
    · next same =>
        rw [same]
        decide
    · exact ⟨trie.sort_nodup _, trie.sort_toFinset _⟩

/-- The sets are `s` with services and `t` with addresses. -/
def sampleConfig (version : Nat) (sets : List SetConfig)
    (distinct : (sets.map SetConfig.name).Nodup) : Event :=
  .receive (.config ⟨version, sets, distinct⟩) slow

/-- A set is filled, changed, resized and dropped while another one comes. -/
def busyEvents : List Event :=
  [sampleConfig 1 [⟨[115], letter 'b', 4, 8⟩] (by decide), .execute,
    .receive (.version 1 [115] 3 7) slow,
    .receive (.diff 1 [115] true 3 0 7 (7 :: firstService)) slow,
    .receive (.version 1 [115] 3 8) slow,
    .execute, .execute, .execute,
    .receive (.diff 1 [115] false 3 7 8 (7 :: secondService)) slow,
    .execute, .execute, .execute, .execute,
    sampleConfig 2 [⟨[115], letter 'b', 20, 8⟩, ⟨[116], letter 'i', 4, 8⟩] (by decide)] ++
  List.replicate 8 .execute ++
  [.receive .reload slow] ++ List.replicate 10 .execute ++
  [sampleConfig 3 [⟨[116], letter 'i', 4, 8⟩] (by decide), .execute]

end Samples

end Ucollect.Fwup
