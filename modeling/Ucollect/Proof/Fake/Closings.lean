import Ucollect.Proof.Fake.Dialogue

/-
Each connection in a slot has its connect event and one closing event, and `conn_closed` is called
once for it, as long as the first prompts can be sent.
-/

namespace Ucollect.Fake.Telnet
open Library Core List Option

section Stories

variable {log more : List Entry} {connection : Nat}

/-- These are the events of the connection in their order. -/
def story (log : List Entry) (connection : Nat) : List EventType :=
  (log.filter fun entry => entry.connection = connection).map (·.type)

def callsFor (closings : List (Nat × Nat)) (connection : Nat) : List (Nat × Nat) :=
  closings.filter fun call => call.1 = connection

theorem story_append (log more : List Entry) (connection : Nat) :
    story (log ++ more) connection = story log connection ++ story more connection := by
  rw [story, filter_append, map_append]
  rfl

theorem story_other (others : ∀ entry ∈ log, entry.connection ≠ connection) :
    story log connection = [] := by
  rw [story, filter_eq_nil_iff.mpr]
  · rfl
  · intro entry member
    simpa using others entry member

theorem story_logins (logins : ∀ entry ∈ log, entry.connection = connection ∧ entry.type = .login) :
    story log connection = List.replicate log.length .login := by
  rw [story, filter_eq_self.mpr fun entry member => decide_eq_true (logins entry member).1]
  apply eq_replicate_iff.mpr
  refine ⟨length_map _, ?_⟩
  intro type member
  obtain ⟨entry, inside, rfl⟩ := List.mem_map.mp member
  exact (logins entry inside).2

theorem callsFor_append (closings more : List (Nat × Nat)) (connection : Nat) :
    callsFor (closings ++ more) connection =
      callsFor closings connection ++ callsFor more connection :=
  filter_append ..

end Stories

section Ledgers

variable {world after : World} {slot : Nat}

/-- The connection is in the slot and not closed. -/
def World.Holds (world : World) (connection slot : Nat) : Prop :=
  (world.slots slot).fd ≠ none ∧ (world.slots slot).connection = connection

def closingTypes : List EventType := [.lost, .disconnect, .timeout]

/-- One connect event is followed by logins, and by one closing event when the connection is closed.
The call of `conn_closed` has the slot of the connection. -/
def Told (world : World) (connection slot : Nat) : Prop :=
  ∃ logins,
    (world.Holds connection slot → story world.log connection =
        .connect :: List.replicate logins .login ∧
      callsFor world.closings connection = []) ∧
    (¬ world.Holds connection slot → ∃ last ∈ closingTypes, story world.log connection =
        .connect :: List.replicate logins .login ++ [last] ∧
      callsFor world.closings connection = [(connection, slot)])

/-- The open and registered descriptors are those of the listening server and of the slots. -/
structure Ledger (world : World) : Prop where
  keys : (world.accepted.map Prod.fst).Nodup
  known : ∀ entry ∈ world.accepted, 0 < entry.1 ∧ entry.1 < world.sockets.next
  positive : 0 < world.sockets.next
  current : ∀ slot, (world.slots slot).fd ≠ none →
    ((world.slots slot).connection, slot) ∈ world.accepted
  numbers : (world.sockets.opened.map Prod.fst).Nodup
  opened : ∀ number socket, (number, socket) ∈ world.sockets.opened ↔
    (number = 3 ∧ socket = 0) ∨
      ∃ slot, (world.slots slot).fd = some number ∧ (world.slots slot).connection = socket
  once : world.sockets.registered.Nodup
  registered : ∀ number, number ∈ world.sockets.registered ↔
    number = 3 ∨ ∃ slot, (world.slots slot).fd = some number
  logged : ∀ entry ∈ world.log, entry.connection < world.sockets.next
  calls : ∀ call ∈ world.closings, call ∈ world.accepted
  told : ∀ entry ∈ world.accepted, Told world entry.1 entry.2

theorem start_ledger : Ledger World.start where
  keys := nodup_nil
  known _ member := absurd member not_mem_nil
  positive := Nat.one_pos
  current _ filled := absurd rfl filled
  numbers := nodup_singleton 3
  opened number socket := by simp [World.start]
  once := nodup_singleton 3
  registered number := by simp [World.start]
  logged _ member := absurd member not_mem_nil
  calls _ member := absurd member not_mem_nil
  told _ member := absurd member not_mem_nil

variable {other : Nat}

/-- A connection is in one slot. -/
theorem Ledger.slot_unique (ledger : Ledger world) (here : (world.slots slot).fd ≠ none)
    (there : (world.slots other).fd ≠ none)
    (same : (world.slots slot).connection = (world.slots other).connection) : slot = other := by
  have first := ledger.current slot here
  have second := ledger.current other there
  have pairs := inj_on_of_nodup_map ledger.keys first second same
  exact congrArg Prod.snd pairs

variable {number : Nat}

/-- A descriptor is in one slot. -/
theorem Ledger.number_unique (ledger : Ledger world) (here : (world.slots slot).fd = some number)
    (there : (world.slots other).fd = some number) :
    slot = other := by
  have first := (ledger.opened number _).mpr (.inr ⟨slot, here, rfl⟩)
  have second := (ledger.opened number _).mpr (.inr ⟨other, there, rfl⟩)
  have pairs := inj_on_of_nodup_map ledger.numbers first second rfl
  apply ledger.slot_unique
  · rw [here]
    exact some_ne_none number
  · rw [there]
    exact some_ne_none number
  · exact congrArg Prod.snd pairs

/-- The descriptor of a slot is not the one that listens. -/
theorem Ledger.not_listening (ledger : Ledger world) (here : (world.slots slot).fd = some number) :
    number ≠ 3 := by
  rintro rfl
  have first := (ledger.opened 3 _).mpr (.inr ⟨slot, here, rfl⟩)
  have second := (ledger.opened 3 0).mpr (.inl ⟨rfl, rfl⟩)
  have pairs := inj_on_of_nodup_map ledger.numbers first second rfl
  have filled : (world.slots slot).fd ≠ none := by
    rw [here]
    exact some_ne_none 3
  have positive := (ledger.known _ (ledger.current slot filled)).1
  have zero : (world.slots slot).connection = 0 := congrArg Prod.snd pairs
  omega

theorem Told.same {connection : Nat} (told : Told world connection slot)
    (holds : after.Holds connection slot ↔ world.Holds connection slot)
    (stories : story after.log connection = story world.log connection)
    (calls : callsFor after.closings connection = callsFor world.closings connection) :
    Told after connection slot := by
  obtain ⟨logins, opened, closed⟩ := told
  refine ⟨logins, ?_, ?_⟩
  · rw [holds, stories, calls]
    exact opened
  · rw [holds, stories, calls]
    exact closed

/-- The entry of a connection in its slot is the only one with this number. -/
theorem Ledger.entry_unique (ledger : Ledger world) {connection : Nat}
    (here : (connection, slot) ∈ world.accepted) (there : (connection, other) ∈ world.accepted) :
    other = slot :=
  congrArg Prod.snd (inj_on_of_nodup_map ledger.keys there here rfl)

/-- The descriptors do not change when those of the slots do not. -/
theorem Ledger.frame (ledger : Ledger world)
    (slots : ∀ other, (after.slots other).fd = (world.slots other).fd ∧
      (after.slots other).connection = (world.slots other).connection)
    (opened : after.sockets.opened = world.sockets.opened)
    (registered : after.sockets.registered = world.sockets.registered)
    (next : world.sockets.next ≤ after.sockets.next) (accepted : after.accepted = world.accepted)
    (closings : after.closings = world.closings)
    (logged : ∀ entry ∈ after.log, entry.connection < after.sockets.next)
    (told : ∀ entry ∈ world.accepted, Told after entry.1 entry.2) : Ledger after where
  keys := by rw [accepted]; exact ledger.keys
  known entry member := by
    rw [accepted] at member
    exact ⟨(ledger.known entry member).1, lt_of_lt_of_le (ledger.known entry member).2 next⟩
  positive := lt_of_lt_of_le ledger.positive next
  current other filled := by
    rw [(slots other).1] at filled
    rw [(slots other).2, accepted]
    exact ledger.current other filled
  numbers := by rw [opened]; exact ledger.numbers
  opened number socket := by
    rw [opened, ledger.opened]
    simp only [slots]
  once := by rw [registered]; exact ledger.once
  registered number := by
    rw [registered, ledger.registered]
    simp only [slots]
  logged
  calls := by rw [closings, accepted]; exact ledger.calls
  told := by rw [accepted]; exact told

theorem Ledger.stays (ledger : Ledger world) (filled : (world.slots slot).fd ≠ none)
    (handles : Handles slot world after) : Ledger after := by
  have slots : ∀ other, (after.slots other).fd = (world.slots other).fd ∧
      (after.slots other).connection = (world.slots other).connection := by
    intro other
    by_cases same : other = slot
    · rw [same]
      exact ⟨handles.fd, handles.connection⟩
    · rw [handles.others other same]
      exact ⟨rfl, rfl⟩
  have current := ledger.current slot filled
  obtain ⟨logins, logged, log⟩ := handles.log
  apply ledger.frame slots
  case opened => rw [handles.sockets]
  case registered => rw [handles.sockets]
  case next => rw [handles.sockets]
  case accepted => exact handles.accepted
  case closings => exact handles.closings
  case logged =>
    intro entry member
    rw [handles.sockets]
    rw [log] at member
    rcases mem_append.mp member with old | new
    · exact ledger.logged entry old
    · rw [(logged entry new).1]
      exact (ledger.known _ current).2
  case told =>
    rintro ⟨connection, other⟩ member
    have holds : after.Holds connection other ↔ world.Holds connection other := by
      rw [World.Holds, World.Holds, (slots other).1, (slots other).2]
    have told := ledger.told _ member
    by_cases same : connection = (world.slots slot).connection
    · rw [same] at member told holds ⊢
      obtain rfl := ledger.entry_unique current member
      obtain ⟨count, opened, -⟩ := told
      obtain ⟨before, calls⟩ := opened ⟨filled, rfl⟩
      refine ⟨count + logins.length, ?_, ?_⟩
      · intro _
        rw [handles.closings, log, story_append, before, story_logins logged, cons_append,
          replicate_append_replicate]
        exact ⟨rfl, calls⟩
      · intro released
        exact absurd (holds.mpr ⟨filled, rfl⟩) released
    · have silent : story logins connection = [] := by
        apply story_other
        intro entry inside
        rw [(logged entry inside).1]
        exact fun equal => same equal.symm
      apply told.same holds
      · rw [log, story_append, silent, append_nil]
      · rw [handles.closings]

theorem eraseP_keys {opened : List (Nat × Nat)} (numbers : (opened.map Prod.fst).Nodup)
    (fd : Nat) :
    opened.eraseP (fun entry => entry.1 == fd) = opened.filter fun entry => entry.1 ≠ fd := by
  induction opened with
  | nil => rfl
  | cons entry opened hypothesis =>
    rw [map_cons, nodup_cons] at numbers
    by_cases same : entry.1 = fd
    · rw [eraseP_cons_of_pos (by simpa using same), filter_cons_of_neg (by simpa using same),
        filter_eq_self.mpr]
      intro other member
      have different : other.1 ≠ entry.1 := by
        intro equal
        apply numbers.1
        rw [← equal]
        exact List.mem_map_of_mem member
      rw [same] at different
      simpa using different
    · rw [eraseP_cons_of_neg (by simpa using same), filter_cons_of_pos (by simpa using same),
        hypothesis numbers.2]

section

variable (ledger : Ledger world)
include ledger

theorem Ledger.closes (filled : (world.slots slot).fd ≠ none) (closes : Closes slot world after) :
    Ledger after := by
  obtain ⟨fd, number⟩ := ne_none_iff_exists'.mp filled
  have current := ledger.current slot filled
  have sockets : after.sockets = world.sockets.release fd := by
    rw [closes.sockets, number]
    rfl
  have next : after.sockets.next = world.sockets.next := by
    rw [sockets]
    rfl
  have slots : ∀ other value, (after.slots other).fd = some value ↔
      (world.slots other).fd = some value ∧ value ≠ fd := by
    intro other value
    by_cases same : other = slot
    · rw [same, closes.fd, number]
      constructor
      · intro impossible
        cases impossible
      · rintro ⟨equal, different⟩
        exact absurd (Option.some.inj equal).symm different
    · rw [closes.others other same]
      constructor
      · intro here
        refine ⟨here, ?_⟩
        rintro rfl
        exact same (ledger.number_unique here number)
      · exact fun both => both.1
  have holds : ∀ connection other, connection ≠ (world.slots slot).connection →
      (after.Holds connection other ↔ world.Holds connection other) := by
    intro connection other different
    by_cases same : other = slot
    · rw [World.Holds, World.Holds, same]
      constructor
      · exact fun both => absurd closes.fd both.1
      · exact fun both => absurd both.2.symm different
    · rw [World.Holds, World.Holds, closes.others other same]
  have connections : ∀ other, (after.slots other).fd ≠ none →
      (after.slots other).connection = (world.slots other).connection := by
    intro other open_
    by_cases same : other = slot
    · rw [same] at open_
      exact absurd closes.fd open_
    · rw [closes.others other same]
  obtain ⟨logins, last, logged, lastConnection, kind, log⟩ := closes.log
  constructor
  case keys => rw [closes.accepted]; exact ledger.keys
  case known => rw [closes.accepted, next]; exact ledger.known
  case positive => rw [next]; exact ledger.positive
  case current =>
    intro other open_
    obtain ⟨value, equal⟩ := ne_none_iff_exists'.mp open_
    rw [connections other open_, closes.accepted]
    apply ledger.current other
    rw [((slots other value).mp equal).1]
    exact some_ne_none value
  case numbers =>
    rw [sockets]
    exact ledger.numbers.sublist (eraseP_sublist.map _)
  case opened =>
    intro value socket
    rw [sockets]
    change (value, socket) ∈ world.sockets.opened.eraseP _ ↔ _
    rw [eraseP_keys ledger.numbers, mem_filter, ledger.opened, decide_eq_true_eq]
    constructor
    · rintro ⟨listening | ⟨other, here, same⟩, different⟩
      · exact .inl listening
      · have kept := (slots other value).mpr ⟨here, different⟩
        refine .inr ⟨other, kept, ?_⟩
        rw [connections other (by rw [kept]; exact some_ne_none value), same]
    · rintro (⟨rfl, rfl⟩ | ⟨other, here, same⟩)
      · exact ⟨.inl ⟨rfl, rfl⟩, (ledger.not_listening number).symm⟩
      · obtain ⟨before, different⟩ := (slots other value).mp here
        refine ⟨.inr ⟨other, before, ?_⟩, different⟩
        rw [← connections other (by rw [here]; exact some_ne_none value), same]
  case once =>
    rw [sockets]
    exact ledger.once.erase fd
  case registered =>
    intro value
    rw [sockets]
    change value ∈ world.sockets.registered.erase fd ↔ _
    rw [ledger.once.mem_erase_iff, ledger.registered]
    simp only [slots]
    constructor
    · rintro ⟨different, rfl | ⟨other, here⟩⟩
      · exact .inl rfl
      · exact .inr ⟨other, here, different⟩
    · rintro (rfl | ⟨other, here, different⟩)
      · exact ⟨(ledger.not_listening number).symm, .inl rfl⟩
      · exact ⟨different, .inr ⟨other, here⟩⟩
  case logged =>
    intro entry member
    rw [next]
    rw [log, append_assoc] at member
    rcases mem_append.mp member with old | new
    · exact ledger.logged entry old
    · have own : entry.connection = (world.slots slot).connection := by
        rcases mem_append.mp new with login | final
        · exact (logged entry login).1
        · rw [mem_singleton.mp final]
          exact lastConnection
      rw [own]
      exact (ledger.known _ current).2
  case calls =>
    rw [closes.closings, closes.accepted]
    intro call member
    rcases mem_append.mp member with old | new
    · exact ledger.calls call old
    · rw [mem_singleton.mp new]
      exact current
  case told =>
    rw [closes.accepted]
    rintro ⟨connection, other⟩ member
    have told := ledger.told _ member
    by_cases same : connection = (world.slots slot).connection
    · rw [same] at member told ⊢
      obtain rfl := ledger.entry_unique current member
      obtain ⟨count, opened, -⟩ := told
      obtain ⟨before, calls⟩ := opened ⟨filled, rfl⟩
      refine ⟨count + logins.length, fun both => absurd closes.fd both.1, fun _ => ?_⟩
      refine ⟨last.type, kind, ?_, ?_⟩
      · have final : story [last] (world.slots other).connection = [last.type] := by
          rw [story, filter_cons_of_pos (by simpa using lastConnection)]
          rfl
        rw [log, story_append, story_append, before, story_logins logged, final, cons_append,
          replicate_append_replicate]
      · rw [closes.closings, callsFor_append, calls, callsFor, filter_cons_of_pos (by simp)]
        rfl
    · have silent : story (logins ++ [last]) connection = [] := by
        apply story_other
        intro entry inside
        rcases mem_append.mp inside with login | final
        · rw [(logged entry login).1]
          exact fun equal => same equal.symm
        · rw [mem_singleton.mp final, lastConnection]
          exact fun equal => same equal.symm
      apply told.same (holds connection other same)
      · rw [log, append_assoc, story_append, silent, append_nil]
      · rw [closes.closings, callsFor_append, callsFor, callsFor,
          filter_cons_of_neg (by simpa using fun equal => same equal.symm), filter_nil,
          append_nil]

/-- Nothing is known of a socket before it is accepted. -/
theorem Ledger.fresh :
    story world.log world.sockets.next = [] ∧ callsFor world.closings world.sockets.next = [] := by
  constructor
  · apply story_other
    intro entry member
    exact (ledger.logged entry member).ne
  · apply filter_eq_nil_iff.mpr
    intro call member
    have small := (ledger.known call (ledger.calls call member)).2
    simpa using small.ne

theorem Ledger.accepts (unused : number ∉ world.sockets.opened.map Prod.fst)
    (accepts : Accepts slot number world after) : Ledger after := by
  have filled : (after.slots slot).fd ≠ none := by
    rw [accepts.fd]
    exact some_ne_none number
  have next : after.sockets.next = world.sockets.next + 1 := by
    rw [accepts.sockets]
    rfl
  have slots : ∀ other value, (after.slots other).fd = some value ↔
      (other = slot ∧ value = number) ∨ (other ≠ slot ∧ (world.slots other).fd = some value) := by
    intro other value
    by_cases same : other = slot
    · rw [same, accepts.fd]
      simp [eq_comm]
    · rw [accepts.others other same]
      simp [same]
  have holds : ∀ entry ∈ world.accepted,
      (after.Holds entry.1 entry.2 ↔ world.Holds entry.1 entry.2) := by
    intro entry member
    by_cases same : entry.2 = slot
    · rw [World.Holds, World.Holds, same, accepts.connection]
      constructor
      · exact fun both => absurd both.2.symm (ledger.known entry member).2.ne
      · exact fun both => absurd accepts.free both.1
    · rw [World.Holds, World.Holds, accepts.others _ same]
  have busy : ∀ other value, (world.slots other).fd = some value → other ≠ slot := by
    rintro other value here rfl
    rw [accepts.free] at here
    cases here
  obtain ⟨silent, uncalled⟩ := ledger.fresh
  constructor
  case keys =>
    rw [accepts.accepted, map_append]
    apply List.Nodup.append ledger.keys (nodup_singleton _)
    rw [disjoint_singleton]
    intro member
    obtain ⟨entry, inside, same⟩ := List.mem_map.mp member
    exact absurd same (ledger.known entry inside).2.ne
  case known =>
    rw [accepts.accepted, next]
    intro entry member
    rcases mem_append.mp member with old | new
    · have known := ledger.known entry old
      exact ⟨known.1, Nat.lt_succ_of_lt known.2⟩
    · rw [mem_singleton.mp new]
      exact ⟨ledger.positive, Nat.lt_succ_self _⟩
  case positive =>
    rw [next]
    exact Nat.succ_pos _
  case current =>
    intro other open_
    rw [accepts.accepted, mem_append]
    by_cases same : other = slot
    · rw [same, accepts.connection]
      exact .inr (mem_singleton_self _)
    · rw [accepts.others other same] at open_ ⊢
      exact .inl (ledger.current other open_)
  case numbers =>
    rw [accepts.sockets, acceptFd, map_append]
    apply List.Nodup.append ledger.numbers (nodup_singleton _)
    rw [disjoint_singleton]
    exact unused
  case opened =>
    intro value socket
    rw [accepts.sockets, acceptFd, mem_append, ledger.opened, mem_singleton]
    simp only [slots, Prod.mk.injEq]
    constructor
    · rintro ((listening | ⟨other, here, same⟩) | ⟨rfl, rfl⟩)
      · exact .inl listening
      · have different := busy other value here
        refine .inr ⟨other, .inr ⟨different, here⟩, ?_⟩
        rw [accepts.others other different, same]
      · exact .inr ⟨slot, .inl ⟨rfl, rfl⟩, accepts.connection⟩
    · rintro (listening | ⟨other, ⟨rfl, rfl⟩ | ⟨different, here⟩, same⟩)
      · exact .inl (.inl listening)
      · rw [accepts.connection] at same
        exact .inr ⟨rfl, same.symm⟩
      · rw [accepts.others other different] at same
        exact .inl (.inr ⟨other, here, same⟩)
  case once =>
    rw [accepts.sockets, acceptFd]
    apply List.Nodup.append ledger.once (nodup_singleton _)
    rw [disjoint_singleton, ledger.registered]
    rintro (rfl | ⟨other, here⟩)
    · exact unused (List.mem_map_of_mem ((ledger.opened 3 0).mpr (.inl ⟨rfl, rfl⟩)))
    · exact unused (List.mem_map_of_mem
        ((ledger.opened number _).mpr (.inr ⟨other, here, rfl⟩)))
  case registered =>
    intro value
    rw [accepts.sockets, acceptFd, mem_append, ledger.registered, mem_singleton]
    simp only [slots]
    constructor
    · rintro ((rfl | ⟨other, here⟩) | rfl)
      · exact .inl rfl
      · exact .inr ⟨other, .inr ⟨busy other value here, here⟩⟩
      · exact .inr ⟨slot, .inl ⟨rfl, rfl⟩⟩
    · rintro (rfl | ⟨other, ⟨-, rfl⟩ | ⟨-, here⟩⟩)
      · exact .inl (.inl rfl)
      · exact .inr rfl
      · exact .inl (.inr ⟨other, here⟩)
  case logged =>
    rw [accepts.log, next]
    intro entry member
    rcases mem_append.mp member with old | new
    · exact Nat.lt_succ_of_lt (ledger.logged entry old)
    · rw [mem_singleton.mp new]
      exact Nat.lt_succ_self _
  case calls =>
    rw [accepts.closings, accepts.accepted]
    intro call member
    exact mem_append_left _ (ledger.calls call member)
  case told =>
    rw [accepts.accepted]
    intro entry member
    rcases mem_append.mp member with old | new
    · apply (ledger.told entry old).same (holds entry old)
      · have other : story [⟨world.sockets.next, .connect, none, none, none⟩] entry.1 = [] := by
          apply story_other
          intro first inside
          rw [mem_singleton.mp inside]
          exact (ledger.known entry old).2.ne'
        rw [accepts.log, story_append, other, append_nil]
      · rw [accepts.closings]
    · rw [mem_singleton.mp new]
      refine ⟨0, fun _ => ⟨?_, by rw [accepts.closings, uncalled]⟩, fun released => ?_⟩
      · rw [accepts.log, story_append, silent]
        simp [story]
      · exact absurd ⟨filled, accepts.connection⟩ released

theorem Ledger.extra (slots : after.slots = world.slots)
    (sockets : after.sockets = throwOut world.sockets) (accepted : after.accepted = world.accepted)
    (closings : after.closings = world.closings)
    (log : after.log = world.log ++ [⟨world.sockets.next, .connectExtra, none, none, none⟩]) :
    Ledger after := by
  apply ledger.frame (fun other => by rw [slots]; exact ⟨rfl, rfl⟩)
  case opened => rw [sockets]; rfl
  case registered => rw [sockets]; rfl
  case next => rw [sockets]; exact Nat.le_succ _
  case accepted => exact accepted
  case closings => exact closings
  case logged =>
    rw [log, sockets]
    intro entry member
    rcases mem_append.mp member with old | new
    · exact Nat.lt_succ_of_lt (ledger.logged entry old)
    · rw [mem_singleton.mp new]
      exact Nat.lt_succ_self _
  case told =>
    intro entry member
    apply (ledger.told entry member).same
    · rw [World.Holds, World.Holds, slots]
    · have silent : story [⟨world.sockets.next, .connectExtra, none, none, none⟩] entry.1 = [] := by
        apply story_other
        intro other inside
        rw [mem_singleton.mp inside]
        exact (ledger.known entry member).2.ne'
      rw [log, story_append, silent, append_nil]
    · rw [closings]

theorem Ledger.step (stepped : Stepped world after) : Ledger after := by
  cases stepped with
  | idle slots sockets accepted closings log =>
    apply ledger.frame (fun other => by rw [slots]; exact ⟨rfl, rfl⟩)
    case opened => rw [sockets]
    case registered => rw [sockets]
    case next => rw [sockets]
    case accepted => exact accepted
    case closings => exact closings
    case logged => rw [log, sockets]; exact ledger.logged
    case told =>
      intro entry member
      apply (ledger.told entry member).same
      · rw [World.Holds, World.Holds, slots]
      · rw [log]
      · rw [closings]
  | visited number visited =>
    cases visited with
    | stays handles => exact ledger.stays number handles
    | closes closes => exact ledger.closes number closes
  | accepts unused accepts => exact ledger.accepts unused accepts
  | extra slots sockets accepted closings log =>
    exact ledger.extra slots sockets accepted closings log

end

end Ledgers

section Runs

variable {world : World} {slot : Nat}

theorem pending_inactive (settled : Settled slot (world.slots slot) (world.view slot)) :
    world.timers.pending (.inactive slot) =
      if (world.slots slot).inactivityTimeoutActive then [(world.slots slot).inactivityTimeout]
      else [] := by
  rw [pending_view, Callback.slot]
  change ((world.view slot).filter _).map _ = _
  rcases settled with opened | shut
  · have watched := opened.watched
    rw [if_pos opened.active]
    rw [Watched] at watched
    split at watched
    case isTrue waits =>
      obtain ⟨soon, late, -, held⟩ := watched
      have filtered := (held.filter fun timeout => timeout.callback = .inactive slot).map (·.id)
      exact (by simpa using filtered)
    case isFalse talks =>
      obtain ⟨due, armed⟩ := watched
      rw [armed]
      simp
  · rw [shut.inactive, shut.idle]
    rfl

/-- A slot has a descriptor exactly while the descriptor is registered and open, its timeout agrees
with its flag, and each accepted connection has its events and its call. -/
structure Kept (world : World) : Prop where
  told : ∀ entry ∈ world.accepted, Told world entry.1 entry.2
  calls : ∀ call ∈ world.closings, call ∈ world.accepted
  current : ∀ slot, (world.slots slot).fd ≠ none →
    ((world.slots slot).connection, slot) ∈ world.accepted
  descriptor : ∀ entry ∈ world.accepted, ∀ number,
    ((world.slots entry.2).fd = some number ∧ (world.slots entry.2).connection = entry.1) ↔
      ((number, entry.1) ∈ world.sockets.opened ∧ number ∈ world.sockets.registered)
  inactive : ∀ slot, world.timers.pending (.inactive slot) =
    if (world.slots slot).inactivityTimeoutActive then [(world.slots slot).inactivityTimeout] else []

theorem Ledger.kept (ledger : Ledger world) (settled : world.Settled) : Kept world where
  told := ledger.told
  calls := ledger.calls
  current := ledger.current
  descriptor entry member number := by
    rw [ledger.opened, ledger.registered]
    constructor
    · rintro ⟨here, same⟩
      exact ⟨.inr ⟨entry.2, here, same⟩, .inr ⟨entry.2, here⟩⟩
    · rintro ⟨⟨-, zero⟩ | ⟨slot, here, same⟩, -⟩
      · exact absurd zero (ledger.known entry member).1.ne'
      · have filled : (world.slots slot).fd ≠ none := by
          rw [here]
          exact some_ne_none number
        have current := ledger.current slot filled
        rw [same] at current
        have equal : slot = entry.2 := ledger.entry_unique member current
        rw [← equal]
        exact ⟨here, same⟩
  inactive slot := pending_inactive (settled.slots slot)

theorem run_ledger (settled : world.Settled) (ledger : Ledger world) (events : List Event)
    (prompted : ∀ event ∈ events, event.prompted) :
    Concludes (fun final => final.Settled ∧ Ledger final) (fun _ => False) (run world events) := by
  induction events generalizing world with
  | nil => exact ⟨settled, ledger⟩
  | cons event events hypothesis =>
    obtain ⟨after, done, stepped, next⟩ := step_ok settled event (prompted event mem_cons_self)
    rw [run, done, ok_bind]
    exact hypothesis next (ledger.step stepped) fun other member =>
      prompted other (mem_cons_of_mem _ member)

/-- While the first prompts can be sent the slots, the descriptors, the timeouts and the log agree. -/
theorem slots_kept (events : List Event) (prompted : ∀ event ∈ events, event.prompted) :
    Concludes Kept (fun _ => False) (run World.start events) :=
  (run_ledger start_settled start_ledger events prompted).weaken
    (fun _ both => both.2.kept both.1) fun _ impossible => impossible

/-- The third connection gets the slot of the second one. -/
def reusedSlot : List Event :=
  [.accept 4 none, .accept 5 none, .ready 0 (.data [(117, none), (13, none), (10, none)]),
    .wait 1000, .ready 1 .closed, .accept 6 none, .ready 0 (.failed "Connection reset by peer")]

theorem slots_kept_reused :
    ∃ world, run World.start reusedSlot = .ok world ∧ Kept world ∧
      world.accepted = [(1, 0), (2, 1), (3, 1)] ∧ world.closings = [(2, 1), (1, 0)] := by
  have kept : ∀ events world, (∀ event ∈ events, event.prompted) →
      run World.start events = .ok world → Kept world :=
    fun events world prompted ran => (slots_kept events prompted).value ran
  have ends : (run World.start reusedSlot).toOption.map (fun world =>
      (world.accepted, world.closings)) = some ([(1, 0), (2, 1), (3, 1)], [(2, 1), (1, 0)]) := by
    decide +kernel
  cases ran : run World.start reusedSlot with
  | error fault =>
    rw [ran] at ends
    cases ends
  | ok world =>
    rw [ran] at ends
    obtain ⟨accepted, closings⟩ := Prod.mk.inj (Option.some.inj ends)
    exact ⟨world, rfl, kept reusedSlot world (by simp [reusedSlot, Event.prompted]) ran, accepted,
      closings⟩

/-- The first prompt of the second connection in the slot is lost. -/
def promptLost : List Event :=
  [.accept 4 none, .ready 0 .closed, .accept 4 (some "Broken pipe")]

theorem prompt_lost :
    (∃ fault, run World.start [.accept 4 (some "Broken pipe")] = .error fault) ∧
      (run World.start promptLost).toOption.map (fun world => story world.log 2) =
        some [.lost, .connect] := by
  constructor
  · exact ⟨.nullTag, rfl⟩
  · decide +kernel

end Runs

end Ucollect.Fake.Telnet
