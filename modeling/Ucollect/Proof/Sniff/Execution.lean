import Ucollect.Construction.Sniff.Client
import Mathlib.Tactic

namespace Ucollect.Sniffer
open Library List Option Function

variable {Data : Type}

/-- The buffer has the size that the task knows and belongs to the pool as it is. -/
structure Task.Held (generation : Nat) (task : Task Data) : Prop where
  data : task.data.generation = generation
  missing : task.buffer = none → task.bufferUsed = 0 ∧ task.bufferAllocated = 0
  buffer : ∀ buffer, task.buffer = some buffer →
    buffer.generation = generation ∧ buffer.value.length = task.bufferAllocated
  used : task.bufferUsed ≤ task.bufferAllocated

/-- The used part of the buffer is what was read. -/
def Task.contents (task : Task Data) : Bytes :=
  ((task.buffer.map Kept.value).getD []).take task.bufferUsed

/-- The tasks are in the pool as it is, and the loop watches exactly their outputs. -/
structure Client.Sound (client : Client Data) : Prop where
  born : ∀ task ∈ client.tasks, task.generation = client.generation
  held : ∀ task ∈ client.tasks, task.value.Held client.generation
  serials : (client.tasks.map fun task => task.value.serial).Nodup
  outs : (client.tasks.map fun task => task.value.out).Nodup
  fds : client.fds = client.tasks.map fun task => (task.value.out, task.value.serial)

namespace Task
open List Option Function

section Grown

variable (task : Task Data) (generation : Nat) (junk : Nat → UInt8)

@[simp] theorem grown_serial : (task.grown generation junk).serial = task.serial := by
  unfold grown
  split <;> rfl

@[simp] theorem grown_out : (task.grown generation junk).out = task.out := by
  unfold grown
  split <;> rfl

@[simp] theorem grown_id : (task.grown generation junk).id = task.id := by
  unfold grown
  split <;> rfl

@[simp] theorem grown_desc : (task.grown generation junk).desc = task.desc := by
  unfold grown
  split <;> rfl

@[simp] theorem grown_data : (task.grown generation junk).data = task.data := by
  unfold grown
  split <;> rfl

@[simp] theorem grown_bufferUsed : (task.grown generation junk).bufferUsed = task.bufferUsed := by
  unfold grown
  split <;> rfl

end Grown

section

variable {generation : Nat} {task : Task Data} (held : task.Held generation)
include held

theorem Held.content_length {buffer : Kept Bytes} (some : task.buffer = some buffer) :
    (buffer.value.take task.bufferUsed).length = task.bufferUsed := by
  rw [length_take, (held.buffer buffer some).2, Nat.min_eq_left held.used]

/-- A buffer that grew has room behind what it held. -/
theorem Held.grown (junk : Nat → UInt8) :
    (task.grown generation junk).Held generation ∧
    (task.grown generation junk).contents = task.contents ∧
    (task.grown generation junk).bufferUsed < (task.grown generation junk).bufferAllocated ∧
    (task.grown generation junk).buffer ≠ none := by
  by_cases full : task.bufferUsed = task.bufferAllocated
  · have size : ((task.buffer.map Kept.value).getD []).length = task.bufferUsed := by
      cases stored : task.buffer with
      | none => simp [(held.missing stored).1]
      | some buffer => simp [(held.buffer buffer stored).2, full]
    rw [Task.grown, if_pos full]
    refine ⟨⟨held.data, by simp, ?_, ?_⟩, ?_, ?_, by simp⟩
    · rintro buffer ⟨⟩
      simp [size, growRatio, growAddition]
      omega
    · simp only [growRatio, growAddition]
      omega
    · simp [contents, size]
    · simp only [growRatio, growAddition]
      omega
  · rw [Task.grown, if_neg full]
    have room : task.bufferUsed < task.bufferAllocated := by
      have := held.used
      omega
    refine ⟨held, rfl, room, fun none => ?_⟩
    have := held.missing none
    omega

/-- Bytes are written behind the used part and inside the buffer. -/
theorem Held.written {bytes : Bytes}
    (room : task.bufferUsed + bytes.length ≤ task.bufferAllocated) :
    (task.written bytes).Held generation := by
  refine ⟨held.data, ?_, ?_, held.used⟩
  · intro none
    exact held.missing (by simpa [Task.written] using none)
  · intro buffer stored
    simp only [Task.written, map_eq_some_iff] at stored
    obtain ⟨old, some, rfl⟩ := stored
    have size := (held.buffer old some).2
    have used := held.used
    refine ⟨(held.buffer old some).1, ?_⟩
    simp only [Task.written, length_append, length_take, length_drop, size]
    omega

theorem Held.take_written (present : task.buffer ≠ none) (bytes : Bytes) :
    (((task.written bytes).buffer.map Kept.value).getD []).take (task.bufferUsed + bytes.length) =
      task.contents ++ bytes := by
  cases stored : task.buffer with
  | none => exact absurd stored present
  | some buffer =>
    have size := held.content_length stored
    simp only [Task.written, stored, map_some, getD_some, contents]
    rw [take_left' (by rw [length_append, size])]

end

end Task

namespace Client
open List Option Function

variable {client : Client Data}

theorem Sound.touchTasks (sound : client.Sound) : client.touchTasks = [] := by
  rw [Client.touchTasks, flatMap_eq_nil_iff]
  intro task member
  rw [touch, if_pos (sound.born task member)]

theorem Sound.cleanup (sound : client.Sound) : client.cleanup.Sound := by
  unfold Client.cleanup
  split
  · next empty =>
      have none : client.tasks = [] := List.isEmpty_iff.mp empty
      constructor
      case fds => exact sound.fds
      all_goals simp [none]
  · exact sound

/-- The cleanup of a client with tasks does nothing. -/
theorem cleanup_of_ne_nil (some : client.tasks ≠ []) : client.cleanup = client := by
  rw [cleanup, if_neg (by simpa using some)]

@[simp] theorem cleanup_tasks (client : Client Data) : client.cleanup.tasks = client.tasks := by
  unfold cleanup
  split <;> rfl

/-- The first element with a key is the only one when the keys are distinct. -/
theorem eraseP_of_nodup {A : Type} {key : A → Nat} {elements : List A}
    (distinct : (elements.map key).Nodup) (value : Nat) :
    (elements.eraseP fun other => key other = value) =
      elements.filter fun other => key other ≠ value := by
  induction elements with
  | nil => rfl
  | cons first rest ih =>
    rw [map_cons, nodup_cons] at distinct
    by_cases same : key first = value
    · have others : rest.filter (fun other => key other ≠ value) = rest := by
        apply filter_eq_self.mpr
        intro other inside
        have differ : key other ≠ value := fun equal =>
          distinct.1 (same ▸ equal ▸ List.mem_map_of_mem inside)
        simpa using differ
      rw [eraseP_cons_of_pos (by simpa using same), filter_cons_of_neg (by simpa using same),
        others]
    · rw [eraseP_cons_of_neg (by simpa using same), filter_cons_of_pos (by simpa using same),
        ih distinct.2]

variable {task : Kept (Task Data)}

/-- A task is known by its number as well as by its output. -/
theorem Sound.out_iff (sound : client.Sound) {other : Kept (Task Data)}
    (member : task ∈ client.tasks) (inside : other ∈ client.tasks) :
    other.value.out = task.value.out ↔ other.value.serial = task.value.serial := by
  constructor
  · intro same
    rw [inj_on_of_nodup_map sound.outs inside member same]
  · intro same
    rw [inj_on_of_nodup_map sound.serials inside member same]

theorem Sound.drop (sound : client.Sound) (member : task ∈ client.tasks) :
    (client.drop task.value).1.Sound := by
  have sub : (client.drop task.value).1.tasks.Sublist client.tasks := filter_sublist
  constructor
  case born => exact fun other inside => sound.born other (sub.subset inside)
  case held => exact fun other inside => sound.held other (sub.subset inside)
  case serials => exact sound.serials.sublist (sub.map _)
  case outs => exact sound.outs.sublist (sub.map _)
  case fds =>
    have distinct : (client.fds.map Prod.fst).Nodup := by
      rw [sound.fds, List.map_map]
      exact sound.outs
    show client.fds.eraseP (fun fd => fd.1 = task.value.out) = _
    rw [eraseP_of_nodup distinct, sound.fds, List.filter_map, Client.drop]
    congr 1
    apply filter_congr
    intro other inside
    simp [sound.out_iff member inside]

/-- The structure of a task is changed in place. -/
theorem Sound.put (sound : client.Sound) (member : task ∈ client.tasks) {changed : Task Data}
    (held : changed.Held client.generation) (serial : changed.serial = task.value.serial)
    (out : changed.out = task.value.out) :
    (client.put changed).Sound := by
  have each : ∀ other ∈ client.tasks, other.value.serial = changed.serial → other = task :=
    fun other inside same =>
      inj_on_of_nodup_map sound.serials inside member (same.trans serial)
  have same : ((client.put changed).tasks.map fun other => (other.value.out, other.value.serial)) =
      client.tasks.map fun other => (other.value.out, other.value.serial) := by
    rw [Client.put, List.map_map]
    apply map_congr_left
    intro other inside
    by_cases equal : other.value.serial = changed.serial
    · have known := each other inside equal
      simp [known, serial, out]
    · simp [equal]
  constructor
  case born =>
    intro other inside
    obtain ⟨old, before, rfl⟩ := List.mem_map.mp inside
    have born := sound.born old before
    split <;> exact born
  case held =>
    intro other inside
    obtain ⟨old, before, rfl⟩ := List.mem_map.mp inside
    split
    · exact held
    · exact sound.held old before
  case serials =>
    have distinct := sound.serials
    rw [show (fun task : Kept (Task Data) => task.value.serial) =
      Prod.snd ∘ fun task => (task.value.out, task.value.serial) from rfl,
      ← List.map_map] at distinct ⊢
    rwa [same]
  case outs =>
    have distinct := sound.outs
    rw [show (fun task : Kept (Task Data) => task.value.out) =
      Prod.fst ∘ fun task => (task.value.out, task.value.serial) from rfl,
      ← List.map_map] at distinct ⊢
    rwa [same]
  case fds => exact sound.fds.trans same.symm

/-- A task that goes away takes its changes with it. -/
theorem drop_put (client : Client Data) {task changed : Task Data}
    (serial : changed.serial = task.serial) (out : changed.out = task.out) :
    ((client.put changed).drop changed).1 = (client.drop task).1 := by
  simp only [drop, put, serial, out]
  congr 1
  induction client.tasks with
  | nil => rfl
  | cons first rest ih =>
    by_cases same : first.value.serial = task.serial
    · simpa [same, serial] using ih
    · simpa [same, serial] using ih

end Client

/-- This is the message about a completed task. -/
def TaskDesc.message (desc : TaskDesc Data) (id : Bytes) (data : Data) (output : Option Bytes)
    (outputSize : Nat) : Bytes :=
  id ++ [if (desc.finish data output outputSize).2 then letter 'O' else letter 'F'] ++
    (desc.finish data output outputSize).1

/-- The answer of a task whose data and output are in the pool uses nothing else. -/
theorem replySend_eq {client : Client Data} (serial : Nat) (id : Bytes) (desc : TaskDesc Data)
    {data : Kept Data} {output : Option (Kept Bytes)} (outputSize : Nat)
    (born : data.generation = client.generation)
    (held : ∀ buffer, output = some buffer → buffer.generation = client.generation) :
    client.replySend serial id desc data output outputSize = (client.cleanup,
      [.answer (some serial)
        (desc.message id data.value (output.map Kept.value) outputSize)]) := by
  have used : (output.map client.touch).getD [] = [] := by
    cases output with
    | none => rfl
    | some buffer => simp [Client.touch, held buffer rfl]
  simp [Client.replySend, Client.touch, born, used, TaskDesc.message]

/-- Changing a task in place leaves it where it was allocated. -/
theorem touchTasks_put {client : Client Data} (sound : client.Sound) (changed : Task Data) :
    (client.put changed).touchTasks = [] := by
  rw [Client.touchTasks, flatMap_eq_nil_iff]
  intro task inside
  obtain ⟨old, before, rfl⟩ := List.mem_map.mp inside
  have born := sound.born old before
  split <;> exact if_pos born

theorem access_held {client : Client Data} {task : Task Data}
    (held : task.Held client.generation) {amount : Nat} (room : amount ≤ task.bufferAllocated) :
    client.access task.buffer amount = [] := by
  cases stored : task.buffer with
  | none =>
    have empty := (held.missing stored).2
    rw [Client.access, if_pos (by omega)]
  | some buffer =>
    obtain ⟨born, size⟩ := held.buffer buffer stored
    simp [Client.access, Client.touch, born, size, room]

section Received

variable {client : Client Data} (sound : client.Sound) {task : Kept (Task Data)}

include sound

/-- A task that goes away changes nothing but the list and the pool. -/
theorem dismiss_eq {changed : Task Data} (serial : changed.serial = task.value.serial)
    (out : changed.out = task.value.out) (data : changed.data.generation = client.generation)
    (held : ∀ buffer, changed.buffer = some buffer → buffer.generation = client.generation) :
    (client.put changed).dismiss changed = ((client.drop task.value).1.cleanup,
      [.closed task.value.out, .answer (some task.value.serial) (changed.desc.message changed.id
        changed.data.value (changed.buffer.map Kept.value) changed.bufferUsed)]) := by
  have generation : (client.drop task.value).1.generation = client.generation := rfl
  rw [Client.dismiss, Client.drop_put client serial out, replySend_eq changed.serial changed.id
    changed.desc changed.bufferUsed (data.trans generation.symm)
    fun buffer stored => (held buffer stored).trans generation.symm]
  simp only [Client.drop, touchTasks_put sound, nil_append, singleton_append, serial, out]

variable (member : task ∈ client.tasks) (junk : Nat → UInt8)

include member

/-- The first steps of the callback use objects of the pool as it is. -/
theorem start_eq :
    client.touch task ++ client.access task.value.buffer task.value.bufferUsed = [] := by
  have held := sound.held task member
  rw [access_held held held.used, append_nil, Client.touch, if_pos (sound.born task member)]

theorem dataReceived_again : client.dataReceived task junk .again =
    (client.put (task.value.grown client.generation junk), []) := by
  simp only [Client.dataReceived, start_eq sound member]

/-- A read that fails loses the output. -/
theorem dataReceived_failed : client.dataReceived task junk .failed =
    ((client.drop task.value).1.cleanup, [.closed task.value.out, .answer (some task.value.serial)
      (task.value.desc.message task.value.id task.value.data.value none 0)]) := by
  have held := sound.held task member
  simp only [Client.dataReceived, start_eq sound member]
  rw [@dismiss_eq Data client sound task _ (by simp) (by simp) (by simp [held.data]) (by simp)]
  simp

/-- The end of the output is marked in the buffer. -/
theorem dataReceived_end : ∃ buffer : Bytes,
    buffer.take task.value.bufferUsed = task.value.contents ∧
    buffer[task.value.bufferUsed]? = some 0 ∧
    client.dataReceived task junk (.got []) = ((client.drop task.value).1.cleanup,
      [.closed task.value.out, .answer (some task.value.serial) (task.value.desc.message
        task.value.id task.value.data.value (some buffer) task.value.bufferUsed)]) := by
  obtain ⟨held, contents, room, present⟩ := (sound.held task member).grown junk
  have fits : (task.value.grown client.generation junk).bufferUsed + 1 ≤
      (task.value.grown client.generation junk).bufferAllocated := room
  have terminated := held.written (show _ + [0].length ≤ _ from fits)
  cases stored : (task.value.grown client.generation junk).buffer with
  | none => exact absurd stored present
  | some buffer =>
    have size := held.content_length stored
    rw [Task.grown_bufferUsed] at size
    refine ⟨buffer.value.take task.value.bufferUsed ++ [0] ++
      buffer.value.drop (task.value.bufferUsed + 1), ?_, ?_, ?_⟩
    · rw [← contents, Task.contents, stored, append_assoc, take_left' size]
      simp
    · rw [append_assoc, List.getElem?_append_right (Nat.le_of_eq size), size]
      simp
    · simp only [Client.dataReceived, start_eq sound member, access_held held fits, nil_append]
      rw [@dismiss_eq Data client sound task _ (by simp [Task.written]) (by simp [Task.written])
        terminated.data fun buffer stored => (terminated.buffer buffer stored).1]
      simp [Task.written, stored]

/-- What was read is stored behind what the buffer held. -/
theorem dataReceived_bytes {bytes : Bytes} (some : bytes ≠ [])
    (room : bytes.length ≤ (task.value.grown client.generation junk).room) :
    client.dataReceived task junk (.got bytes) = (client.put
      { (task.value.grown client.generation junk).written bytes with
        bufferUsed := (task.value.grown client.generation junk).bufferUsed + bytes.length }, []) := by
  obtain ⟨held, contents, space, present⟩ := (sound.held task member).grown junk
  have inside : (task.value.grown client.generation junk).bufferUsed + bytes.length ≤
      (task.value.grown client.generation junk).bufferAllocated := by
    simp only [Task.room] at room
    omega
  cases bytes with
  | nil => exact absurd rfl some
  | cons first rest =>
    simp only [Client.dataReceived, start_eq sound member, access_held held inside, append_nil]

end Received

/-- These are the messages about one task. -/
def answersOf (serial : Nat) (log : List Effect) : List Bytes :=
  log.filterMap fun
    | .answer (some task) message => if task = serial then some message else none
    | _ => none

/-- A task is open until its only answer is sent, and the pipes are those of the open tasks. -/
structure World.Formed (world : World Data) : Prop where
  sound : world.client.Sound
  old : ∀ task ∈ world.client.tasks, task.value.serial < world.started
  pipes : ∀ descriptor, (world.pipes descriptor).isSome ↔
    ∃ task ∈ world.client.tasks, task.value.out = descriptor
  collected : ∀ task ∈ world.client.tasks, ∀ pipe, world.pipes task.value.out = some pipe →
    task.value.contents ++ pipe.pending = pipe.written
  unstarted : ∀ serial, world.started ≤ serial → answersOf serial world.log = []
  unanswered : ∀ task ∈ world.client.tasks, answersOf task.value.serial world.log = []
  answered : ∀ serial < world.started,
    (∀ task ∈ world.client.tasks, task.value.serial ≠ serial) →
    (answersOf serial world.log).length = 1
  faultless : ∀ fault, .fault fault ∉ world.log

namespace World
open List Option Function

theorem new_formed : (new : World Data).Formed := by
  constructor <;> simp [new, Client.new, answersOf]
  constructor <;> simp

theorem apply_append (world : World Data) (first second : Client Data) (early late : List Effect) :
    world.apply (second, early ++ late) = (world.apply (first, early)).apply (second, late) := by
  simp [apply]

variable {world : World Data} {pipe : Pipe} {descriptor : Nat}

theorem Formed.setPipe (formed : world.Formed) {old : Pipe}
    (present : world.pipes descriptor = some old)
    (collected : ∀ task ∈ world.client.tasks, task.value.out = descriptor →
      task.value.contents ++ pipe.pending = pipe.written) :
    (world.setPipe descriptor pipe).Formed := by
  refine ⟨formed.sound, formed.old, ?_, ?_, formed.unstarted, formed.unanswered, formed.answered,
    formed.faultless⟩
  · intro other
    by_cases same : other = descriptor
    · subst same
      have isOpen := (formed.pipes other).mp (by simp [present])
      simpa [World.setPipe] using isOpen
    · simpa [World.setPipe, same] using formed.pipes other
  · intro task member other found
    by_cases same : task.value.out = descriptor
    · simp only [World.setPipe, same, update_self, Option.some.injEq] at found
      subst found
      exact collected task member same
    · simp only [World.setPipe, update_of_ne same] at found
      exact formed.collected task member other found

/-- An effect that is neither an answer nor a fault leaves the world as it is when it leaves the
pipes alone. -/
theorem Formed.silent {world : World Data} (formed : world.Formed) {effect : Effect}
    (silent : ∀ serial, answersOf serial [effect] = []) (clean : ∀ fault, effect ≠ .fault fault)
    (pipes : effect.pipes world.pipes = world.pipes) :
    (world.apply (world.client, [effect])).Formed := by
  have same (serial : Nat) : answersOf serial (world.apply (world.client, [effect])).log =
      answersOf serial world.log := by
    have nothing := silent serial
    unfold answersOf at nothing
    simp only [apply, answersOf, filterMap_append, nothing, append_nil]
  have kept : (world.apply (world.client, [effect])).pipes = world.pipes := pipes
  refine ⟨formed.sound, formed.old, ?_, ?_, ?_, ?_, ?_, ?_⟩
  · exact fun descriptor => kept ▸ formed.pipes descriptor
  · exact fun task member pipe found => formed.collected task member pipe (kept ▸ found)
  · exact fun serial late => (same serial).trans (formed.unstarted serial late)
  · exact fun task member => (same _).trans (formed.unanswered task member)
  · exact fun serial started gone => (same serial) ▸ formed.answered serial started gone
  · intro fault
    simpa [apply, Ne.symm (clean fault)] using formed.faultless fault

/-- Closing a descriptor that is not open changes nothing. -/
theorem Formed.close (formed : world.Formed)
    (unknown : ∀ task ∈ world.client.tasks, task.value.out ≠ descriptor) :
    (world.apply (world.client, [.closed descriptor])).Formed := by
  have missing : world.pipes descriptor = none := by
    rw [← not_isSome_iff_eq_none, formed.pipes]
    rintro ⟨task, member, same⟩
    exact unknown task member same
  exact formed.silent (by simp [answersOf]) (by simp) (by simp [Effect.pipes, ← missing])

variable {task : Kept (Task Data)}

/-- A task that goes away is answered at last. -/
theorem Formed.remove (formed : world.Formed) (member : task ∈ world.client.tasks)
    (message : Bytes) :
    (world.apply ((world.client.drop task.value).1.cleanup,
      [.closed task.value.out, .answer (some task.value.serial) message])).Formed := by
  have mem_iff (other : Kept (Task Data)) :
      other ∈ (world.client.drop task.value).1.tasks ↔
        other ∈ world.client.tasks ∧ other.value.serial ≠ task.value.serial := by
    simp [Client.drop]
  have log (serial : Nat) : answersOf serial (world.apply ((world.client.drop task.value).1.cleanup,
      [.closed task.value.out, .answer (some task.value.serial) message])).log =
      answersOf serial world.log ++ if task.value.serial = serial then [message] else [] := by
    by_cases same : task.value.serial = serial <;> simp [apply, answersOf, same]
  constructor
  case sound => exact (formed.sound.drop member).cleanup
  case old =>
    intro other inside
    rw [apply, Client.cleanup_tasks, mem_iff] at inside
    exact formed.old other inside.1
  case pipes =>
    intro descriptor
    simp only [apply, foldl_cons, foldl_nil, Effect.pipes, Client.cleanup_tasks, mem_iff]
    by_cases same : descriptor = task.value.out
    · subst same
      simp only [update_self, isSome_none, Bool.false_eq_true, false_iff, not_exists]
      rintro other ⟨⟨inside, differ⟩, equal⟩
      exact differ ((formed.sound.out_iff member inside).mp equal)
    · rw [update_of_ne same, formed.pipes]
      constructor
      · rintro ⟨other, inside, rfl⟩
        refine ⟨other, ⟨inside, fun equal => same ?_⟩, rfl⟩
        exact (formed.sound.out_iff member inside).mpr equal
      · rintro ⟨other, ⟨inside, _⟩, equal⟩
        exact ⟨other, inside, equal⟩
  case collected =>
    intro other inside pipe found
    simp only [apply, Client.cleanup_tasks, mem_iff] at inside
    simp only [apply, foldl_cons, foldl_nil, Effect.pipes] at found
    have differ : other.value.out ≠ task.value.out := fun equal =>
      inside.2 ((formed.sound.out_iff member inside.1).mp equal)
    rw [update_of_ne differ] at found
    exact formed.collected other inside.1 pipe found
  case unstarted =>
    intro serial late
    have started : task.value.serial < world.started := formed.old task member
    have differ : task.value.serial ≠ serial := by
      rintro rfl
      exact absurd started (Nat.not_lt.mpr late)
    rw [log, formed.unstarted serial late, if_neg differ, append_nil]
  case unanswered =>
    intro other inside
    rw [apply, Client.cleanup_tasks, mem_iff] at inside
    rw [log, formed.unanswered other inside.1, if_neg (Ne.symm inside.2), append_nil]
  case answered =>
    intro serial started gone
    simp only [apply, Client.cleanup_tasks, mem_iff] at gone
    rw [log]
    by_cases same : task.value.serial = serial
    · rw [← same, formed.unanswered task member, if_pos rfl]
      rfl
    · rw [if_neg same, append_nil]
      refine formed.answered serial started fun other inside equal => ?_
      exact gone other ⟨inside, fun alike => same (alike.symm.trans equal)⟩ equal
  case faultless =>
    intro fault
    simpa [apply] using formed.faultless fault

/-- A task that has no output is answered when it starts. -/
theorem Formed.immediate (formed : world.Formed) (message : Bytes) :
    ({ world.apply (world.client.cleanup, [.answer (some world.started) message]) with
      started := world.started + 1 }).Formed := by
  have log (serial : Nat) : answersOf serial
      (world.apply (world.client.cleanup, [.answer (some world.started) message])).log =
      answersOf serial world.log ++ if world.started = serial then [message] else [] := by
    by_cases same : world.started = serial <;> simp [apply, answersOf, same]
  constructor
  case sound => exact formed.sound.cleanup
  case old =>
    intro task member
    simp only [apply, Client.cleanup_tasks] at member
    exact Nat.lt_succ_of_lt (formed.old task member)
  case pipes =>
    intro descriptor
    simpa [apply, Effect.pipes] using formed.pipes descriptor
  case collected =>
    intro task member pipe found
    simp only [apply, Client.cleanup_tasks] at member
    exact formed.collected task member pipe found
  case unstarted =>
    intro serial late
    have differ : world.started ≠ serial := by
      simp only at late
      omega
    rw [log, formed.unstarted serial (by simp only at late; omega), if_neg differ, append_nil]
  case unanswered =>
    intro task member
    simp only [apply, Client.cleanup_tasks] at member
    have differ : world.started ≠ task.value.serial := Nat.ne_of_gt (formed.old task member)
    rw [log, formed.unanswered task member, if_neg differ, append_nil]
  case answered =>
    intro serial started gone
    simp only [apply, Client.cleanup_tasks] at gone started
    rw [log]
    by_cases same : world.started = serial
    · rw [if_pos same, formed.unstarted serial (Nat.le_of_eq same)]
      rfl
    · rw [if_neg same, append_nil]
      exact formed.answered serial (by omega) gone
  case faultless =>
    intro fault
    simpa [apply] using formed.faultless fault

/-- A task with an output waits in the list. -/
theorem Formed.wait {world : World Data} (formed : world.Formed) {task : Task Data}
    (held : task.Held world.client.generation) (serial : task.serial = world.started)
    (empty : task.contents = [])
    (fresh : ∀ other ∈ world.client.tasks, other.value.out ≠ task.out) :
    ({ world.apply ({ world.client with
          tasks := world.client.tasks ++ [Kept.mk world.client.generation task]
          fds := world.client.fds ++ [(task.out, task.serial)] }, [.opened task.out]) with
      started := world.started + 1 }).Formed := by
  have mem_iff (other : Kept (Task Data)) :
      other ∈ world.client.tasks ++ [Kept.mk world.client.generation task] ↔
        other ∈ world.client.tasks ∨ other = Kept.mk world.client.generation task := by
    simp
  have log (serial : Nat) : answersOf serial (world.log ++ [.opened task.out]) =
      answersOf serial world.log := by
    simp [answersOf]
  constructor
  case sound =>
    constructor
    case born =>
      intro other inside
      rcases (mem_iff other).mp inside with before | rfl
      · exact formed.sound.born other before
      · rfl
    case held =>
      intro other inside
      rcases (mem_iff other).mp inside with before | rfl
      · exact formed.sound.held other before
      · exact held
    case serials =>
      have later : ∀ other ∈ world.client.tasks, other.value.serial ≠ task.serial :=
        fun other inside => serial ▸ Nat.ne_of_lt (formed.old other inside)
      simpa [apply, nodup_append] using ⟨formed.sound.serials, later⟩
    case outs => simpa [apply, nodup_append] using ⟨formed.sound.outs, fresh⟩
    case fds => simp [apply, formed.sound.fds]
  case old =>
    intro other inside
    rcases (mem_iff other).mp inside with before | rfl
    · exact Nat.lt_succ_of_lt (formed.old other before)
    · exact serial ▸ Nat.lt_succ_self _
  case pipes =>
    intro descriptor
    simp only [apply, foldl_cons, foldl_nil, Effect.pipes, mem_iff]
    by_cases same : descriptor = task.out
    · subst same
      simp
    · rw [update_of_ne same, formed.pipes]
      constructor
      · rintro ⟨other, inside, equal⟩
        exact ⟨other, Or.inl inside, equal⟩
      · rintro ⟨other, inside | rfl, equal⟩
        · exact ⟨other, inside, equal⟩
        · exact absurd equal.symm same
  case collected =>
    intro other inside pipe found
    simp only [apply, foldl_cons, foldl_nil, Effect.pipes] at found
    rcases (mem_iff other).mp inside with before | rfl
    · rw [update_of_ne (fresh other before)] at found
      exact formed.collected other before pipe found
    · simp only [update_self, Option.some.injEq] at found
      subst found
      simp [empty]
  case unstarted =>
    intro later late
    exact (log later).trans (formed.unstarted later (Nat.le_of_succ_le late))
  case unanswered =>
    intro other inside
    refine (log _).trans ?_
    rcases (mem_iff other).mp inside with before | rfl
    · exact formed.unanswered other before
    · exact formed.unstarted _ (Nat.le_of_eq serial.symm)
  case answered =>
    intro other started gone
    have differ : task.serial ≠ other := gone _ ((mem_iff _).mpr (Or.inr rfl))
    refine (congrArg List.length (log other)).trans (formed.answered other ?_ ?_)
    · simp only at started
      omega
    · exact fun task inside => gone task ((mem_iff _).mpr (Or.inl inside))
  case faultless =>
    intro fault
    simpa [apply] using formed.faultless fault

/-- A started task waits for its output or is answered at once. -/
theorem Formed.launch (formed : world.Formed) (desc : TaskDesc Data) (id : Bytes)
    (start : Start Data)
    (fresh : start.out ≠ 0 → ∀ task ∈ world.client.tasks, task.value.out ≠ start.out) :
    ({ world.apply (world.client.launch desc id start world.started) with
      started := world.started + 1 }).Formed := by
  have replied := @replySend_eq Data world.client world.started id desc
    ⟨world.client.generation, start.data⟩ none 0 rfl (by simp)
  rw [Client.launch]
  by_cases none : start.out = 0
  · simp only [none, if_true, replied]
    exact formed.immediate _
  by_cases nonBlocking : start.nonBlocking
  · simp only [none, nonBlocking, if_true, if_false, formed.sound.touchTasks, nil_append]
    refine @Formed.wait Data world formed _ ⟨rfl, ?_, ?_, ?_⟩ rfl ?_ (fresh none) <;>
      simp [Task.contents]
  · simp only [none, nonBlocking, if_false, replied, Bool.false_eq_true]
    have closed := formed.close (fresh none)
    rw [← singleton_append, apply_append]
    exact closed.immediate _

theorem mem_put {client : Client Data} {changed : Task Data} {other : Kept (Task Data)}
    (inside : other ∈ (client.put changed).tasks) :
    other.value = changed ∨ other ∈ client.tasks ∧ other.value.serial ≠ changed.serial := by
  obtain ⟨old, before, rfl⟩ := List.mem_map.mp inside
  by_cases same : old.value.serial = changed.serial
  · simp [same]
  · simp [same, before]

/-- What a task reads moves from its pipe to its buffer. -/
theorem Formed.put (formed : world.Formed) (member : task ∈ world.client.tasks)
    {changed : Task Data} (held : changed.Held world.client.generation)
    (serial : changed.serial = task.value.serial) (out : changed.out = task.value.out)
    (collected : changed.contents ++ pipe.pending = pipe.written) :
    ((world.setPipe task.value.out pipe).apply (world.client.put changed, [])).Formed := by
  have outs : ∀ descriptor, (∃ other ∈ (world.client.put changed).tasks,
      other.value.out = descriptor) ↔ ∃ other ∈ world.client.tasks, other.value.out = descriptor := by
    intro descriptor
    constructor
    · rintro ⟨other, inside, rfl⟩
      rcases mem_put inside with same | ⟨before, _⟩
      · exact ⟨task, member, by rw [same, out]⟩
      · exact ⟨other, before, rfl⟩
    · rintro ⟨other, inside, rfl⟩
      refine ⟨_, List.mem_map_of_mem inside, ?_⟩
      split
      · next same =>
          rw [out]
          exact ((formed.sound.out_iff member inside).mpr (same.trans serial)).symm
      · rfl
  constructor
  case sound => exact formed.sound.put member held serial out
  case old =>
    intro other inside
    rcases mem_put inside with same | ⟨before, _⟩
    · rw [same, serial]
      exact formed.old task member
    · exact formed.old other before
  case pipes =>
    intro descriptor
    rw [show ((world.setPipe task.value.out pipe).apply (world.client.put changed, [])).client =
      world.client.put changed from rfl, outs descriptor]
    by_cases same : descriptor = task.value.out
    · subst same
      simp only [apply, World.setPipe, foldl_nil, update_self, isSome_some, true_iff]
      exact ⟨task, member, rfl⟩
    · simpa [apply, World.setPipe, same] using formed.pipes descriptor
  case collected =>
    intro other inside found present
    simp only [apply, World.setPipe, foldl_nil] at present
    rcases mem_put inside with same | ⟨before, differ⟩
    · rw [same, out, update_self, Option.some.injEq] at present
      rw [same, ← present, collected]
    · have elsewhere : other.value.out ≠ task.value.out := fun equal =>
        differ (((formed.sound.out_iff member before).mp equal).trans serial.symm)
      rw [update_of_ne elsewhere] at present
      exact formed.collected other before found present
  case unstarted => simpa [apply, World.setPipe] using formed.unstarted
  case unanswered =>
    intro other inside
    have old : answersOf other.value.serial world.log = [] := by
      rcases mem_put inside with same | ⟨before, _⟩
      · rw [same, serial]
        exact formed.unanswered task member
      · exact formed.unanswered other before
    simpa [apply, World.setPipe] using old
  case answered =>
    intro other started gone
    have absent : ∀ before ∈ world.client.tasks, before.value.serial ≠ other := by
      intro before inside same
      refine gone _ (List.mem_map_of_mem inside) ?_
      split
      · next equal => exact equal.symm.trans same
      · exact same
    simpa [apply, World.setPipe] using formed.answered other started absent
  case faultless => simpa [apply, World.setPipe] using formed.faultless

theorem tagged_some (formed : world.Formed) (tagged : world.tagged descriptor = some (task, pipe)) :
    task ∈ world.client.tasks ∧ task.value.out = descriptor ∧
      world.pipes descriptor = some pipe := by
  unfold World.tagged at tagged
  split at tagged
  · cases tagged
  next fd found =>
    split at tagged
    · cases tagged
    next known inside =>
      obtain ⟨present, isOpen, same⟩ := map_eq_some_iff.mp tagged
      obtain ⟨rfl, rfl⟩ := Prod.mk.injEq .. ▸ same
      have member := mem_of_find?_eq_some inside
      have registered := mem_of_find?_eq_some found
      rw [formed.sound.fds] at registered
      obtain ⟨owner, watched, rfl⟩ := List.mem_map.mp registered
      have serial : known.value.serial = owner.value.serial := by
        simpa using List.find?_some inside
      have out : owner.value.out = descriptor := by simpa using List.find?_some found
      exact ⟨member, ((formed.sound.out_iff watched member).mpr serial).trans out, isOpen⟩

/-- A read takes some bytes that fit, or there are none. -/
theorem read_cases (pipe : Pipe) {room : Nat} (some : room ≠ 0) (amount : Nat) :
    pipe.read room amount = .got [] ∧ pipe.pending = [] ∧ pipe.closed = true ∨
    pipe.read room amount = .again ∨
    ∃ bytes, pipe.read room amount = .got bytes ∧ bytes ≠ [] ∧ bytes.length ≤ room ∧
      bytes ++ pipe.pending.drop bytes.length = pipe.pending := by
  by_cases drained : pipe.pending = []
  · by_cases closed : pipe.closed
    · exact Or.inl ⟨by simp [Pipe.read, some, drained, closed], drained, closed⟩
    · exact Or.inr (Or.inl (by simp [Pipe.read, some, drained, closed]))
  · refine Or.inr (Or.inr ⟨pipe.pending.take (max 1 (min amount room)),
      by simp [Pipe.read, some, drained], by simp [drained], ?_,
      prefix_iff_eq_append.mp (List.take_prefix _ _)⟩)
    rw [length_take]
    omega

/-- A read moves bytes to the buffer or completes the task. -/
theorem Formed.received (formed : world.Formed) (member : task ∈ world.client.tasks)
    (isOpen : world.pipes task.value.out = some pipe) (amount : Nat) (junk : Nat → UInt8) :
    let read := pipe.read (task.value.grown world.client.generation junk).room amount
    ((world.setPipe task.value.out { pipe with pending := pipe.pending.drop read.taken }).apply
      (world.client.dataReceived task junk read)).Formed := by
  obtain ⟨held, contents, space, present⟩ := (formed.sound.held task member).grown junk
  have collected := formed.collected task member pipe isOpen
  have room : (task.value.grown world.client.generation junk).room ≠ 0 := by
    simp only [Task.room]
    omega
  rcases read_cases pipe room amount with ⟨read, drained, closed⟩ | read |
    ⟨bytes, read, some, fits, rest⟩
  · obtain ⟨buffer, _, _, same⟩ := dataReceived_end formed.sound member junk
    simp only [read, same, Read.taken, length_nil, drop_zero]
    have kept : (world.setPipe task.value.out pipe).Formed := by
      refine formed.setPipe isOpen fun other inside out => ?_
      exact formed.collected other inside pipe (out ▸ isOpen)
    exact kept.remove member _
  · simp only [read, dataReceived_again formed.sound member junk, Read.taken, drop_zero]
    exact formed.put member held (by simp) (by simp) (by rw [contents, collected])
  · have inside : (task.value.grown world.client.generation junk).bufferUsed + bytes.length ≤
        (task.value.grown world.client.generation junk).bufferAllocated := by
      simp only [Task.room] at fits
      omega
    have written := held.written inside
    let filled : Task Data :=
      { (task.value.grown world.client.generation junk).written bytes with
        bufferUsed := (task.value.grown world.client.generation junk).bufferUsed + bytes.length }
    have kept : filled.Held world.client.generation := by
      refine ⟨written.data, fun missing => ?_, written.buffer, inside⟩
      exact absurd (by simpa [filled, Task.written] using missing) present
    have stored : filled.contents = task.value.contents ++ bytes := by
      rw [← contents]
      exact held.take_written present bytes
    simp only [read, dataReceived_bytes formed.sound member junk some fits, Read.taken]
    refine formed.put member kept (by simp [filled, Task.written])
      (by simp [filled, Task.written]) ?_
    rw [stored, append_assoc, rest, collected]

/-- The pool is not reset while a request aborts a task. -/
def KeepsPool (world : World Data) (id : Bytes) : Prop :=
  ∀ old ∈ world.client.tasks.find? fun task => task.value.id = id,
    ∃ other ∈ world.client.tasks, other.value.serial ≠ old.value.serial

instance (world : World Data) (id : Bytes) : Decidable (world.KeepsPool id) := by
  unfold KeepsPool
  infer_instance

/-- A request of a known kind leaves another task in the list when it replaces one, and its output
is a new descriptor. -/
def Admits (taskDescs : List (TaskDesc Data)) (world : World Data) : Event Data → Prop
  | .request request start => (Client.findDesc taskDescs request.op).isSome →
      world.KeepsPool request.id ∧ (start.out ≠ 0 →
        ∀ task ∈ (world.client.abort request.id).1.tasks, task.value.out ≠ start.out)
  | .write _ _ | .finish _ | .ready _ _ _ | .failed _ _ => True

instance (taskDescs : List (TaskDesc Data)) (world : World Data) (event : Event Data) :
    Decidable (world.Admits taskDescs event) := by
  cases event <;> unfold Admits <;> infer_instance

def Orderly (taskDescs : List (TaskDesc Data)) : World Data → List (Event Data) → Prop
  | _, [] => True
  | world, event :: events =>
    world.Admits taskDescs event ∧ Orderly taskDescs (world.step taskDescs event) events

instance (taskDescs : List (TaskDesc Data)) (world : World Data) (events : List (Event Data)) :
    Decidable (world.Orderly taskDescs events) := by
  induction events generalizing world with
  | nil => exact isTrue trivial
  | cons event events ih =>
    have := ih (world.step taskDescs event)
    unfold Orderly
    infer_instance

theorem abort_none (formed : world.Formed) {id : Bytes}
    (none : (world.client.tasks.find? fun task => task.value.id = id) = none) :
    world.client.abort id = (world.client, []) := by
  rw [Client.abort, none, formed.sound.touchTasks]

/-- The task that is aborted is killed, closed and answered. -/
theorem abort_some (formed : world.Formed) {id : Bytes} (keeps : world.KeepsPool id)
    {old : Kept (Task Data)}
    (found : (world.client.tasks.find? fun task => task.value.id = id) = some old) :
    world.client.abort id = ((world.client.drop old.value).1.cleanup,
      [.kill old.value.pid] ++ [.closed old.value.out,
        .answer (some old.value.serial) (id ++ [letter 'A'])]) := by
  obtain ⟨other, inside, differ⟩ := keeps old found
  have left : (world.client.drop old.value).1.tasks ≠ [] := by
    apply ne_nil_of_mem (a := other)
    simp [Client.drop, inside, differ]
  have born : (world.client.drop old.value).1.touch old = [] :=
    if_pos (formed.sound.born old (mem_of_find?_eq_some found))
  simp only [Client.abort, found, Client.cleanup_of_ne_nil left, born]
  simp [Client.drop, formed.sound.touchTasks]

theorem Formed.abort (formed : world.Formed) {id : Bytes} (keeps : world.KeepsPool id) :
    (world.apply (world.client.abort id)).Formed := by
  cases found : world.client.tasks.find? fun task => task.value.id = id with
  | none =>
    rw [abort_none formed found]
    simpa [apply] using formed
  | some old =>
    have killed := @Formed.silent Data world formed (.kill old.value.pid) (by simp [answersOf])
      (by simp) rfl
    rw [abort_some formed keeps found, apply_append]
    exact killed.remove (mem_of_find?_eq_some found) _

variable {taskDescs : List (TaskDesc Data)}

theorem Formed.step (formed : world.Formed) {event : Event Data}
    (admits : world.Admits taskDescs event) :
    (world.step taskDescs event).Formed := by
  cases event with
  | request request start =>
    cases known : Client.findDesc taskDescs request.op with
    | none =>
      have unknown := @Formed.silent Data world formed
        (.answer none (request.id ++ [letter 'U'])) (by simp [answersOf]) (by simp) rfl
      simpa [World.step, Client.inRequest, known] using unknown
    | some desc =>
      obtain ⟨keeps, fresh⟩ := admits (by simp [known])
      have launched := (formed.abort keeps).launch desc request.id start fresh
      simp only [World.step, Client.inRequest, known, isSome_some, if_true]
      rw [apply_append]
      exact launched
  | write descriptor bytes =>
    simp only [World.step]
    split
    · exact formed
    next pipe isOpen =>
      split
      · exact formed
      · refine formed.setPipe isOpen fun task inside out => ?_
        rw [← formed.collected task inside pipe (out ▸ isOpen), append_assoc]
  | finish descriptor =>
    simp only [World.step]
    split
    · exact formed
    next pipe isOpen =>
      exact formed.setPipe isOpen fun task inside out =>
        formed.collected task inside pipe (out ▸ isOpen)
  | ready descriptor amount junk =>
    simp only [World.step]
    split
    · exact formed
    next task pipe tagged =>
      obtain ⟨member, rfl, isOpen⟩ := tagged_some formed tagged
      exact formed.received member isOpen amount junk
  | failed descriptor junk =>
    simp only [World.step]
    split
    · exact formed
    next task pipe tagged =>
      obtain ⟨member, rfl, isOpen⟩ := tagged_some formed tagged
      rw [dataReceived_failed formed.sound member junk]
      exact formed.remove member _

theorem Formed.run (formed : world.Formed) {events : List (Event Data)}
    (orderly : world.Orderly taskDescs events) :
    (world.run taskDescs events).Formed := by
  induction events generalizing world with
  | nil => exact formed
  | cons event events ih => exact ih (formed.step orderly.1) orderly.2

/-- An answer completes a task whose output ended or failed, or reports what a request did. -/
inductive Explained (taskDescs : List (TaskDesc Data)) (world : World Data) :
    Event Data → Option Nat → Bytes → Prop where
  | unknown {request : Request} {start : Start Data}
      (missing : Client.findDesc taskDescs request.op = none) :
      Explained taskDescs world (.request request start) none (request.id ++ [letter 'U'])
  | aborted {request : Request} {start : Start Data} {task : Kept (Task Data)}
      (known : (Client.findDesc taskDescs request.op).isSome) (member : task ∈ world.client.tasks)
      (same : task.value.id = request.id) :
      Explained taskDescs world (.request request start) (some task.value.serial)
        (request.id ++ [letter 'A'])
  | immediate {request : Request} {start : Start Data} {desc : TaskDesc Data}
      (known : Client.findDesc taskDescs request.op = some desc)
      (absent : start.out = 0 ∨ start.nonBlocking = false) :
      Explained taskDescs world (.request request start) (some world.started)
        (desc.message request.id start.data none 0)
  | ended {amount : Nat} {junk : Nat → UInt8} {task : Kept (Task Data)} {pipe : Pipe}
      {buffer : Bytes} (member : task ∈ world.client.tasks)
      (isOpen : world.pipes task.value.out = some pipe) (drained : pipe.pending = [])
      (closed : pipe.closed = true) (collected : buffer.take pipe.written.length = pipe.written)
      (terminated : buffer[pipe.written.length]? = some 0) :
      Explained taskDescs world (.ready task.value.out amount junk) (some task.value.serial)
        (task.value.desc.message task.value.id task.value.data.value (some buffer)
          pipe.written.length)
  | failed {junk : Nat → UInt8} {task : Kept (Task Data)} (member : task ∈ world.client.tasks) :
      Explained taskDescs world (.failed task.value.out junk) (some task.value.serial)
        (task.value.desc.message task.value.id task.value.data.value none 0)

variable {message : Bytes}

/-- A task that starts is answered only when it has no output. -/
theorem launch_answers {client : Client Data} (sound : client.Sound) {desc : TaskDesc Data}
    {id : Bytes} {start : Start Data} {serial : Nat} {task : Option Nat}
    (sent : .answer task message ∈ (client.launch desc id start serial).2) :
    (start.out = 0 ∨ start.nonBlocking = false) ∧ task = some serial ∧
      message = desc.message id start.data none 0 := by
  have replied := @replySend_eq Data client serial id desc ⟨client.generation, start.data⟩ none 0
    rfl (by simp)
  rw [Client.launch] at sent
  by_cases none : start.out = 0
  · simp only [none, if_true, replied, mem_singleton, Effect.answer.injEq] at sent
    exact ⟨Or.inl none, sent.1, sent.2⟩
  by_cases nonBlocking : start.nonBlocking
  · simp [none, nonBlocking, sound.touchTasks] at sent
  · simp only [none, nonBlocking, if_false, replied, Bool.false_eq_true, mem_cons, reduceCtorEq,
      false_or, not_mem_nil, or_false, Effect.answer.injEq] at sent
    exact ⟨Or.inr (by simpa using nonBlocking), sent.1, sent.2⟩

theorem request_explained (formed : world.Formed) {request : Request} {start : Start Data}
    (admits : world.Admits taskDescs (.request request start)) {task : Option Nat}
    (sent : .answer task message ∈
      (world.client.inRequest taskDescs request start world.started).2) :
    Explained taskDescs world (.request request start) task message := by
  cases known : Client.findDesc taskDescs request.op with
  | none =>
    simp only [Client.inRequest, known, mem_singleton, Effect.answer.injEq] at sent
    obtain ⟨rfl, rfl⟩ := sent
    exact .unknown known
  | some desc =>
    obtain ⟨keeps, fresh⟩ := admits (by simp [known])
    simp only [Client.inRequest, known, mem_append] at sent
    rcases sent with early | late
    · cases found : world.client.tasks.find? fun task => task.value.id = request.id with
      | none => simp [abort_none formed found] at early
      | some old =>
        rw [abort_some formed keeps found] at early
        simp only [singleton_append, mem_cons, reduceCtorEq, false_or, not_mem_nil, or_false,
          Effect.answer.injEq] at early
        obtain ⟨rfl, rfl⟩ := early
        exact .aborted (by simp [known]) (mem_of_find?_eq_some found)
          (by simpa using List.find?_some found)
    · obtain ⟨absent, rfl, rfl⟩ := launch_answers (formed.abort keeps).sound late
      exact .immediate known absent

/-- A read completes a task only when its process has closed a pipe that is empty. -/
theorem received_explained (formed : world.Formed) (member : task ∈ world.client.tasks)
    (isOpen : world.pipes task.value.out = some pipe) {amount : Nat} {junk : Nat → UInt8}
    {answered : Option Nat}
    (sent : .answer answered message ∈ (world.client.dataReceived task junk
      (pipe.read (task.value.grown world.client.generation junk).room amount)).2) :
    Explained taskDescs world (.ready task.value.out amount junk) answered message := by
  obtain ⟨held, contents, space, present⟩ := (formed.sound.held task member).grown junk
  have room : (task.value.grown world.client.generation junk).room ≠ 0 := by
    simp only [Task.room]
    omega
  rcases read_cases pipe room amount with ⟨read, drained, closed⟩ | read |
    ⟨bytes, read, some, fits, rest⟩
  · obtain ⟨buffer, front, terminated, same⟩ := dataReceived_end formed.sound member junk
    have whole : task.value.contents = pipe.written := by
      rw [← formed.collected task member pipe isOpen, drained, append_nil]
    have inside : task.value.bufferUsed < buffer.length :=
      (List.getElem?_eq_some_iff.mp terminated).1
    have size : task.value.bufferUsed = pipe.written.length := by
      rw [← whole, ← front, length_take, Nat.min_eq_left inside.le]
    rw [read, same] at sent
    simp only [mem_cons, reduceCtorEq, false_or, not_mem_nil, or_false, Effect.answer.injEq] at sent
    obtain ⟨rfl, rfl⟩ := sent
    rw [size] at front terminated ⊢
    exact .ended member isOpen drained closed (front.trans whole) terminated
  · simp [read, dataReceived_again formed.sound member junk] at sent
  · simp [read, dataReceived_bytes formed.sound member junk some fits] at sent

/-- Every answer of a step has its reason in the world before the step. -/
theorem step_explained (formed : world.Formed) {event : Event Data}
    (admits : world.Admits taskDescs event) :
    ∃ effects, (world.step taskDescs event).log = world.log ++ effects ∧
      ∀ task message, .answer task message ∈ effects →
        Explained taskDescs world event task message := by
  cases event with
  | request request start =>
    refine ⟨(world.client.inRequest taskDescs request start world.started).2, ?_,
      fun task message sent => request_explained formed admits sent⟩
    simp only [World.step]
    split <;> rfl
  | write descriptor bytes =>
    refine ⟨[], ?_, by simp⟩
    simp only [World.step, append_nil]
    split
    · rfl
    · split <;> rfl
  | finish descriptor =>
    refine ⟨[], ?_, by simp⟩
    simp only [World.step, append_nil]
    split <;> rfl
  | ready descriptor amount junk =>
    simp only [World.step]
    split
    · exact ⟨[], by simp, by simp⟩
    next task pipe tagged =>
      obtain ⟨member, rfl, isOpen⟩ := tagged_some formed tagged
      exact ⟨_, rfl, fun other message sent => received_explained formed member isOpen sent⟩
  | failed descriptor junk =>
    simp only [World.step]
    split
    · exact ⟨[], by simp, by simp⟩
    next task pipe tagged =>
      obtain ⟨member, rfl, isOpen⟩ := tagged_some formed tagged
      refine ⟨_, rfl, fun other message sent => ?_⟩
      simp only [dataReceived_failed formed.sound member junk, mem_cons, reduceCtorEq, false_or,
        not_mem_nil, or_false, Effect.answer.injEq] at sent
      obtain ⟨rfl, rfl⟩ := sent
      exact .failed member

end World

/-- In every run that keeps the pool while it replaces a task, the open tasks are those with an open
output, each other task has exactly one answer, nothing of an old pool is used, and each answer has
its reason. -/
theorem tasks_executed (taskDescs : List (TaskDesc Data)) {events : List (Event Data)}
    (orderly : World.new.Orderly taskDescs events) :
    (World.new.run taskDescs events).Formed ∧
    ∀ event, (World.new.run taskDescs events).Admits taskDescs event →
      ∃ effects, ((World.new.run taskDescs events).step taskDescs event).log =
          (World.new.run taskDescs events).log ++ effects ∧
        ∀ task message, .answer task message ∈ effects →
          World.Explained taskDescs (World.new.run taskDescs events) event task message := by
  have formed := World.new_formed.run orderly
  exact ⟨formed, fun event admits => World.step_explained formed admits⟩

/-- The kinds echo their output and do nothing. -/
def sampleDescs : List (TaskDesc Unit) :=
  [⟨letter 'N', fun _ _ _ => ([], true)⟩,
    ⟨letter 'P', fun _ output size => ((output.getD []).take size, output.isSome)⟩]

def sampleRequest (id : UInt8) (op : Char) : Request := ⟨[0, 0, 0, id, letter op], by simp⟩

/-- A task is replaced while another one is open, and the other one ends. -/
def sampleEvents : List (Event Unit) :=
  [.request (sampleRequest 1 'P') ⟨(), 5, 100, true⟩,
    .request (sampleRequest 2 'P') ⟨(), 6, 101, true⟩,
    .write 6 [70, 71],
    .ready 6 9 (fun _ => 255),
    .request (sampleRequest 1 'N') ⟨(), 0, 0, true⟩,
    .finish 6,
    .ready 6 9 (fun _ => 255)]

theorem tasks_executed_sample :
    (World.new.run sampleDescs sampleEvents).log =
      [.opened 5, .opened 6, .kill 100, .closed 5, .answer (some 0) [0, 0, 0, 1, letter 'A'],
        .answer (some 2) [0, 0, 0, 1, letter 'O'], .closed 6,
        .answer (some 1) [0, 0, 0, 2, letter 'O', 70, 71]] ∧
    (World.new.run sampleDescs sampleEvents).Formed := by
  exact ⟨by decide +kernel, (tasks_executed sampleDescs (by decide +kernel)).1⟩

/-- A request that replaces the only task uses it after the pool was reset. -/
theorem tasks_executed_not :
    .fault .stale ∈ (World.new.run sampleDescs
      [.request (sampleRequest 1 'P') ⟨(), 5, 100, true⟩,
        .request (sampleRequest 1 'N') ⟨(), 0, 0, true⟩]).log := by
  decide +kernel

end Ucollect.Sniffer
