import Ucollect.Proof.Buckets.Requests

/-
This file proves which callbacks of the requests are invoked, and with whose data.
-/

namespace Ucollect.Requests
open Library List

section Runs

variable {world next : World} {event : Event} {outputs : List Output} {owners : Nat → Bytes}

theorem invoked_map (data : Option Bytes) (success : Bool) (taken : List Nat) :
    invoked (taken.map fun callback => .invoke callback data success) = taken := by
  induction taken with
  | nil => rfl
  | cons callback taken ih => exact congrArg (callback :: ·) ih

/-- A callback is invoked once, or it waits at one place. -/
theorem World.Moves.once (moves : world.Moves event next outputs) {used : List Nat}
    (once : Once world.callbacks.length world.waiting used) :
    Once next.callbacks.length next.waiting (used ++ invoked outputs) := by
  cases moves with
  | quiet ccaches callbacks none =>
    rw [callbacks, waiting_congr world ccaches, none, append_nil]
    exact once
  | refused object client known ccaches callbacks =>
    rw [callbacks, waiting_congr world ccaches, length_append]
    exact once.spend
  | recalled object client ccache keys data success known found kept ccaches callbacks =>
    rw [callbacks, waiting_congr world ccaches, length_append]
    exact once.spend
  | joined place name ccaches unheld callbacks none =>
    rw [callbacks, waiting_congr _ ccaches, waiting_setEntry, none, append_nil, length_append]
    exact once.put place
  | answered rid timeout closure client data success request known active carried taken part ccaches
      callbacks =>
      rw [callbacks, waiting_congr _ ccaches, waiting_setEntry, invoked_map]
      exact once.take _ part

/-- A message with keys for a request comes from the client that was asked. -/
def World.Trusts (world : World) : Event → Prop
  | .message name message _ => message.head? = some (letter 'K') →
      ∀ answer ∈ answerId message, ∀ request ∈ world.manager.requests answer.1,
        ∀ client ∈ world.objects request.2.object, client.active = true → client.name = name
  | .connected _ | .disconnected _ | .ask _ _ _ _ _ | .trim _ => True

instance (world : World) (event : Event) : Decidable (world.Trusts event) :=
  match event with
  | .message _ message _ => inferInstanceAs (Decidable (message.head? = some (letter 'K') →
      ∀ answer ∈ answerId message, ∀ request ∈ world.manager.requests answer.1,
        ∀ client ∈ world.objects request.2.object, client.active = true → client.name = _))
  | .connected _ | .disconnected _ | .ask _ _ _ _ _ | .trim _ => .isTrue trivial

def World.Trusting (world : World) : List Event → Prop
  | [] => True
  | event :: events => world.Trusts event ∧ (world.step event).1.Trusting events

instance decidableTrusting (world : World) : (events : List Event) → Decidable (world.Trusting events)
  | [] => .isTrue trivial
  | event :: events =>
    have := decidableTrusting (world.step event).1 events
    inferInstanceAs (Decidable (_ ∧ _))

/-- The client has sent these keys. -/
def Delivered (events : List Event) (name data : Bytes) : Prop :=
  ∃ message raises rid, .message name message raises ∈ events ∧
    message.head? = some (letter 'K') ∧ answerId message = some (rid, data)

/-- The keys in a dictionary are the ones that its owner has sent. -/
def World.Authentic (world : World) (owners : Nat → Bytes) (events : List Event) : Prop :=
  ∀ ccache keys data, world.ccaches ccache keys = some (.received data true) →
    ∃ answer, data = some answer ∧ Delivered events (owners ccache) answer

variable {events : List Event}

theorem Delivered.later {more : List Event} {name data : Bytes}
    (delivered : Delivered events name data) (part : events ⊆ more) : Delivered more name data := by
  obtain ⟨message, raises, rid, member, keys, answer⟩ := delivered
  exact ⟨message, raises, rid, part member, keys, answer⟩

/-- The callbacks that are there stay. -/
theorem World.Moves.callbacks_prefix (moves : world.Moves event next outputs) :
    world.callbacks <+: next.callbacks := by
  cases moves with
  | quiet ccaches callbacks none => exact callbacks ▸ prefix_refl _
  | refused object client known ccaches callbacks => exact callbacks ▸ prefix_append _ _
  | recalled object client ccache keys data success known found kept ccaches callbacks =>
    exact callbacks ▸ prefix_append _ _
  | joined place name ccaches unheld callbacks none => exact callbacks ▸ prefix_append _ _
  | answered rid timeout closure client data success request known active carried taken part ccaches
      callbacks => exact callbacks ▸ prefix_refl _

/-- The owner of the dictionary has sent the answer. -/
theorem World.Formed.carries (formed : world.Formed owners) {name message : Bytes}
    {raises : List Nat} (trusts : world.Trusts (.message name message raises)) {rid timeout : Nat}
    {closure : Closure} {client : Client} {answer : Bytes}
    (request : world.manager.requests rid = some (timeout, closure))
    (known : world.objects closure.object = some client) (active : client.active = true)
    (keys : message.head? = some (letter 'K')) (answers : answerId message = some (rid, answer))
    (events : List Event) :
    Delivered (events ++ [.message name message raises]) (owners closure.ccache) answer := by
  have same : client.name = name := trusts keys _ answers _ request _ known active
  obtain ⟨-, other, held, owner⟩ := formed.requests rid timeout closure request
  cases known.symm.trans held
  refine ⟨message, raises, rid, mem_append_right _ ?_, keys, answers⟩
  rw [← owner, same]
  exact mem_singleton_self _

theorem World.Moves.authentic {later : Nat → Bytes} (moves : world.Moves event next outputs)
    (formed : world.Formed owners) (authentic : world.Authentic owners events)
    (trusts : world.Trusts event) (agrees : Extends world owners later) :
    next.Authentic later (events ++ [event]) := by
  have stays : ∀ ccache keys data, world.ccaches ccache keys = some (.received data true) →
      ∃ answer, data = some answer ∧ Delivered (events ++ [event]) (later ccache) answer := by
    intro ccache keys data held
    obtain ⟨answer, same, delivered⟩ := authentic ccache keys data held
    refine ⟨answer, same, ?_⟩
    rw [agrees ccache (by
      by_contra new
      cases held.symm.trans (formed.ccaches ccache keys (not_lt.mp new)))]
    exact delivered.later (subset_append_left _ _)
  intro ccache keys data held
  cases moves with
  | quiet ccaches callbacks none => exact stays ccache keys data (ccaches ▸ held)
  | refused object client known ccaches callbacks => exact stays ccache keys data (ccaches ▸ held)
  | recalled object client other others old success known found kept ccaches callbacks =>
    exact stays ccache keys data (ccaches ▸ held)
  | joined place name ccaches unheld callbacks none =>
    rw [ccaches, setEntry_ccaches] at held
    split at held
    · cases held
    · exact stays ccache keys data held
  | answered rid timeout closure client answer success request known active carried taken part ccaches
      callbacks =>
      rw [ccaches, setEntry_ccaches] at held
      split at held
      · next here =>
          cases held
          obtain ⟨answer, same, keys, answers⟩ := carried rfl
          refine ⟨answer, same, ?_⟩
          rw [here.1, agrees _ (formed.requests rid timeout closure request).1]
          exact formed.carries trusts request known active keys answers events
      · exact stays ccache keys data held

/-- The data that a callback gets was sent by its client. -/
theorem World.Moves.delivers (moves : world.Moves event next outputs) (formed : world.Formed owners)
    (authentic : world.Authentic owners events) (trusts : world.Trusts event) {callback : Nat}
    {data : Option Bytes} (output : .invoke callback data true ∈ outputs) :
    ∃ name answer, next.callbacks[callback]? = some name ∧ data = some answer ∧
      Delivered (events ++ [event]) name answer := by
  have silent : invoked outputs = [] → False := by
    intro none
    have member : callback ∈ invoked outputs := mem_filterMap.mpr ⟨_, output, rfl⟩
    rw [none] at member
    cases member
  cases moves with
  | quiet ccaches callbacks none => exact (silent none).elim
  | refused object client known ccaches callbacks => cases mem_singleton.mp output
  | recalled object client ccache keys old success known found kept ccaches callbacks =>
    cases mem_singleton.mp output
    obtain ⟨generation, criterion, found⟩ := found
    obtain ⟨-, owner⟩ := leads_find (formed.caches object client known) found
    obtain ⟨answer, same, delivered⟩ := authentic ccache keys data kept
    refine ⟨client.name, answer, ?_, same, ?_⟩
    · rw [callbacks]
      exact List.getElem?_concat_length
    · rw [← owner]
      exact delivered.later (subset_append_left _ _)
  | joined place name ccaches unheld callbacks none => exact (silent none).elim
  | answered rid timeout closure client old success request known active carried taken part ccaches
      callbacks =>
      obtain ⟨waiter, member, same⟩ := List.mem_map.mp output
      cases same
      obtain ⟨answer, same, keys, answers⟩ := carried rfl
      refine ⟨owners closure.ccache, answer, ?_, same,
        formed.carries trusts request known active keys answers events⟩
      rw [callbacks]
      exact formed.waiting _ _ (part.subset member)

theorem run_callbacks (formed : world.Formed owners) (events : List Event) :
    world.callbacks <+: (world.run events).1.callbacks := by
  induction events generalizing world owners with
  | nil => exact prefix_refl _
  | cons event events ih =>
    obtain ⟨moves, later, -, kept⟩ := step_spec formed event
    exact moves.callbacks_prefix.trans (ih kept)

theorem run_once {used : List Nat} (formed : world.Formed owners)
    (once : Once world.callbacks.length world.waiting used) (events : List Event) :
    (used ++ invoked (world.run events).2).Nodup := by
  induction events generalizing world owners used with
  | nil => exact (append_nil used).symm ▸ once.usedOnce
  | cons event events ih =>
    obtain ⟨moves, later, -, kept⟩ := step_spec formed event
    have rest := ih kept (moves.once once)
    rw [append_assoc, invoked, invoked, ← filterMap_append] at rest
    exact rest

theorem run_delivers {past : List Event} (formed : world.Formed owners)
    (authentic : world.Authentic owners past) {events : List Event}
    (trusting : world.Trusting events) {callback : Nat} {data : Option Bytes}
    (output : .invoke callback data true ∈ (world.run events).2) :
    ∃ name answer, (world.run events).1.callbacks[callback]? = some name ∧ data = some answer ∧
      Delivered (past ++ events) name answer := by
  induction events generalizing world owners past with
  | nil => cases output
  | cons event events ih =>
    obtain ⟨moves, later, agrees, kept⟩ := step_spec formed event
    rcases mem_append.mp output with now | after
    · obtain ⟨name, answer, made, same, delivered⟩ :=
        moves.delivers formed authentic trusting.1 now
      refine ⟨name, answer, ?_, same, delivered.later ?_⟩
      · obtain ⟨short, -⟩ := List.getElem?_eq_some_iff.mp made
        obtain ⟨more, parts⟩ := run_callbacks kept events
        show (((world.step event).1.run events).1.callbacks)[callback]? = some name
        rw [← parts, List.getElem?_append_left short]
        exact made
      · rw [append_cons past event events]
        exact subset_append_left _ _
    · obtain ⟨name, answer, made, same, delivered⟩ :=
        ih kept (moves.authentic formed authentic trusting.1 agrees) trusting.2 after
      refine ⟨name, answer, made, same, ?_⟩
      rw [append_assoc] at delivered
      exact delivered

theorem start_formed : World.start.Formed fun _ => [] where
  ccaches _ _ _ := rfl
  objects _ _ := rfl
  caches _ _ known := nomatch known
  requests _ _ _ known := nomatch known
  waiting _ _ waits := absurd waits not_mem_nil

/-- No callback is invoked twice. When keys come only from the client that was asked for them, each
callback gets what its client has sent. -/
theorem requests_isolated (events : List Event) :
    (invoked (World.start.run events).2).Nodup ∧
      (World.start.Trusting events → ∀ callback data,
        .invoke callback data true ∈ (World.start.run events).2 →
          ∃ name answer, (World.start.run events).1.callbacks[callback]? = some name ∧
            data = some answer ∧ Delivered events name answer) :=
  ⟨run_once start_formed once_start events, fun trusting _ _ output =>
    @run_delivers _ _ [] start_formed (fun _ _ _ known => nomatch known) _ trusting _ _ output⟩

/-- Two clients are asked, and the first one is asked again. -/
def sampleEvents : List Event :=
  [.connected [1], .connected [2], .message [1] [letter 'C'] [], .message [2] [letter 'C'] [],
    .ask [1] 0 5 [1, 2] 100, .ask [2] 0 5 [1, 2] 100, .ask [1] 0 5 [1, 2] 100,
    .message [1] (letter 'K' :: (word32 0 ++ [7])) [], .message [2] (letter 'M' :: word32 1) [],
    .ask [1] 0 5 [1, 2] 101, .trim 200, .disconnected [1]]

theorem requests_isolated_sample :
    ∀ callback data, .invoke callback data true ∈ (World.start.run sampleEvents).2 →
      ∃ name answer, (World.start.run sampleEvents).1.callbacks[callback]? = some name ∧
        data = some answer ∧ Delivered sampleEvents name answer :=
  (requests_isolated sampleEvents).2 (by decide +kernel)

/-- The second client answers the request of the first one. -/
def foreignEvents : List Event :=
  [.connected [1], .connected [2], .message [1] [letter 'C'] [], .ask [1] 0 5 [1, 2] 100,
    .message [2] (letter 'K' :: (word32 0 ++ [7])) []]

/-- The callback gets keys, but its client has sent none. -/
theorem requests_isolated_not :
    .invoke 0 (some [7]) true ∈ (World.start.run foreignEvents).2 ∧
      (World.start.run foreignEvents).1.callbacks[0]? = some [1] ∧
      ∀ answer, ¬ Delivered foreignEvents [1] answer := by
  refine ⟨by decide +kernel, by decide +kernel, ?_⟩
  rintro answer ⟨message, raises, rid, member, keys, -⟩
  simp only [foreignEvents, mem_cons, not_mem_nil, or_false, reduceCtorEq, false_or,
    Event.message.injEq] at member
  rcases member with ⟨-, rfl, -⟩ | ⟨other, -⟩
  · exact absurd keys (by decide)
  · exact absurd other (by decide)

end Runs

end Ucollect.Requests
