import Mathlib.Data.List.DropRight
import Ucollect.Construction.Core.MemPool

/-
This file models the timeouts of core/loop.c.
-/

namespace Ucollect.Core
open MemPool

structure Timeout (C : Type) where
  due : Nat
  id : Nat
  callback : C
  deriving DecidableEq, Repr

/-- The counter of `loop_timeout_add` keeps the last identifier. -/
structure Timers (C : Type) where
  timeouts : List (Timeout C)
  counter : Nat
  deriving DecidableEq, Repr

def Timers.ids {C : Type} (timers : Timers C) : List Nat := timers.timeouts.map (·.id)

/-- The loop tries the next identifier while it belongs to a pending timeout. The identifiers of
the type `size_t` wrap around. -/
def freshId (machine : Machine) (used : List Nat) : Nat → Nat → Option Nat
  | 0, _ => none
  | tries + 1, counter =>
    let id := (counter + 1) % machine.limit
    if id ∈ used then freshId machine used tries id else some id

/-- The array stays sorted, and a new timeout goes behind those due at the same time. -/
def insertTimeout {C : Type} (timeouts : List (Timeout C)) (timeout : Timeout C) :
    List (Timeout C) :=
  timeouts.rdropWhile (fun other => timeout.due < other.due) ++
    timeout :: timeouts.rtakeWhile (fun other => timeout.due < other.due)

/-- A search without a free identifier does not end. -/
def Timers.add {C : Type} (timers : Timers C) (machine : Machine) (now after : Nat) (callback : C) :
    Option (Nat × Timers C) :=
  let after := if after = 0 then 1 else after
  (freshId machine timers.ids (timers.timeouts.length + 1) timers.counter).map fun id =>
    (id, ⟨insertTimeout timers.timeouts ⟨now + after, id, callback⟩, id⟩)

/-- A timeout that is not pending fails an assertion. -/
def Timers.cancel {C : Type} (timers : Timers C) (id : Nat) : Option (Timers C) :=
  if id ∈ timers.ids then
    some { timers with timeouts := timers.timeouts.eraseP fun timeout => timeout.id == id }
  else none

end Ucollect.Core

/-
This file models the array that core/loop.c keeps the timeouts in, slot by slot, and the runs of
the loop over it.
-/

namespace Ucollect.Core
open MemPool

/-- The slots are the allocated memory. A slot is empty before its first write. -/
structure TimeoutArray (C : Type) where
  slots : List (Option (Timeout C))
  count : Nat
  counter : Nat
  deriving DecidableEq, Repr

/-- The clock of the loop counts milliseconds in 64 bits. -/
def clockModulus : Nat := 2 ^ 64

section Memory

variable {C : Type}

def TimeoutArray.pending (array : TimeoutArray C) : List (Timeout C) :=
  (array.slots.take array.count).filterMap id

def readSlot (slots : List (Option (Timeout C))) (position : Nat) : Option (Timeout C) :=
  slots[position]?.join

def writeSlot (slots : List (Option (Timeout C))) (position : Nat) (timeout : Timeout C) :
    Option (List (Option (Timeout C))) :=
  if position < slots.length then some (slots.set position (some timeout)) else none

/-- A full array is copied to a new one of twice the size. -/
def growSlots (slots : List (Option (Timeout C))) (count : Nat) : List (Option (Timeout C)) :=
  if count = slots.length then
    let capacity := if slots.length * 2 = 0 then 2 else slots.length * 2
    slots.take count ++ List.replicate (capacity - count) none
  else slots

/-- The loop moves the later timeouts up and stops at the position of the hole. -/
def shiftSlots (due : Nat) (slots : List (Option (Timeout C))) :
    Nat → Option (List (Option (Timeout C)) × Nat)
  | 0 => some (slots, 0)
  | position + 1 => do
    let other ← readSlot slots position
    if due < other.due then
      let slots ← writeSlot slots (position + 1) other
      shiftSlots due slots position
    else
      some (slots, position + 1)

/-- The check skips the hole, which still holds an old timeout. -/
def idTaken (slots : List (Option (Timeout C))) (hole id : Nat) : List Nat → Option Bool
  | [] => some false
  | position :: rest =>
    if position = hole then idTaken slots hole id rest
    else do
      let timeout ← readSlot slots position
      if timeout.id = id then some true else idTaken slots hole id rest

/-- A search without a free identifier does not end. -/
def searchId (machine : Machine) (slots : List (Option (Timeout C))) (count hole : Nat) :
    Nat → Nat → Option Nat
  | 0, _ => none
  | tries + 1, counter => do
    let id := (counter + 1) % machine.limit
    let taken ← idTaken slots hole id (List.range (count + 1))
    if taken then searchId machine slots count hole tries id else some id

/-- The last check is the assertion behind the new timeout. -/
def TimeoutArray.loopTimeoutAdd (array : TimeoutArray C) (machine : Machine) (now : Nat)
    (after : UInt32) (callback : C) : Option (Nat × TimeoutArray C) := do
  let after := if after = 0 then 1 else after
  let slots := growSlots array.slots array.count
  let due := (now + after.toNat) % clockModulus
  let (slots, hole) ← shiftSlots due slots array.count
  let id ← searchId machine slots array.count hole (array.count + 1) array.counter
  let slots ← writeSlot slots hole ⟨due, id, callback⟩
  if now < due then some (id, ⟨slots, array.count + 1, id⟩) else none

/-- The rest of the array moves one position left. -/
def TimeoutArray.remove (array : TimeoutArray C) (position : Nat) : TimeoutArray C :=
  { array with
    slots := array.slots.take position ++
      (array.slots.drop (position + 1)).take (array.count - 1 - position) ++
      array.slots.drop (array.count - 1)
    count := array.count - 1 }

def TimeoutArray.cancelFrom (array : TimeoutArray C) (id : Nat) :
    Nat → Nat → Option (TimeoutArray C)
  | 0, _ => none
  | remaining + 1, position => do
    let timeout ← readSlot array.slots position
    if timeout.id = id then some (array.remove position)
    else array.cancelFrom id remaining (position + 1)

/-- The loop over all the timeouts ends in an assertion. -/
def TimeoutArray.loopTimeoutCancel (array : TimeoutArray C) (id : Nat) :
    Option (TimeoutArray C) :=
  array.cancelFrom id array.count 0

def TimeoutArray.destroyFrom (owned : C → Bool) :
    Nat → TimeoutArray C → Nat → Option (TimeoutArray C)
  | 0, array, _ => some array
  | remaining + 1, array, position =>
    if position < array.count then do
      let timeout ← readSlot array.slots position
      if owned timeout.callback then destroyFrom owned remaining (array.remove position) position
      else destroyFrom owned remaining array (position + 1)
    else some array

/-- A destroyed plugin takes its timeouts with it. -/
def TimeoutArray.pluginDestroy (array : TimeoutArray C) (owned : C → Bool) :
    Option (TimeoutArray C) :=
  destroyFrom owned array.count array 0

/-- A committed configuration writes the new context to the timeouts of a kept plugin. -/
def TimeoutArray.migrate (array : TimeoutArray C) (move : C → C) : TimeoutArray C :=
  { array with
    slots := (array.slots.take array.count).map
        (Option.map fun timeout => { timeout with callback := move timeout.callback }) ++
      array.slots.drop array.count }

/-- The first timeout leaves the array before its callback runs. -/
def TimeoutArray.takeDue (array : TimeoutArray C) (now : Nat) :
    Option (Option (Timeout C × TimeoutArray C)) :=
  if array.count = 0 then some none
  else do
    let timeout ← readSlot array.slots 0
    if timeout.due ≤ now then some (some (timeout, array.remove 0)) else some none

end Memory

/-- The loop does not read the data of a timeout. Here they are the number of the addition. -/
structure Call (P : Type) where
  context : Option P
  serial : Nat
  deriving DecidableEq, Repr

/-- The records next to the array say what has happened to the timeouts. They are read off the
array before and after each step. -/
structure TimeoutLoop (P : Type) where
  array : TimeoutArray (Call P)
  now : Nat
  /-- The due time and the context of each addition. -/
  added : List (Nat × Option P)
  fired : List (Nat × Timeout (Call P))
  cancels : List Nat
  cancelled : List (Nat × Timeout (Call P))
  destroyed : List (P × Timeout (Call P))
  deriving DecidableEq, Repr

def TimeoutLoop.start (P : Type) (now : Nat) : TimeoutLoop P := ⟨⟨[], 0, 0⟩, now, [], [], [], [], []⟩

inductive TimeoutOp (P : Type) where
  | add (after : UInt32) (context : Option P)
  | cancel (id : Nat)
  deriving DecidableEq, Repr

/-- A callback adds and cancels timeouts, and it may end in a crash. -/
structure TimeoutCallback (P : Type) where
  ops : List (TimeoutOp P)
  crashes : Bool
  deriving DecidableEq, Repr

inductive TimeoutEvent (P : Type) where
  | call (op : TimeoutOp P)
  | destroy (plugin : P)
  | migrate (original plugin : P)
  | tick (elapsed : Nat)
  | process (callbacks : List (TimeoutCallback P))
  deriving DecidableEq, Repr

/-- A run stops at a failed assertion, a search without end, or an access outside the array. -/
inductive TimeoutFault (P : Type) where
  | op (op : TimeoutOp P)
  | memory
  deriving DecidableEq, Repr

section Run

variable {P : Type} [DecidableEq P]

def departed (before after : TimeoutArray (Call P)) : List (Timeout (Call P)) :=
  before.pending.filter fun timeout => timeout ∉ after.pending

def TimeoutLoop.op (loop : TimeoutLoop P) (machine : Machine) : TimeoutOp P → Option (TimeoutLoop P)
  | .add after context =>
    (loop.array.loopTimeoutAdd machine loop.now after ⟨context, loop.added.length⟩).map fun added =>
      { loop with
        array := added.2
        added := loop.added ++ [(loop.now + max 1 after.toNat, context)] }
  | .cancel id =>
    (loop.array.loopTimeoutCancel id).map fun array =>
      { loop with
        array := array
        cancels := loop.cancels ++ [id]
        cancelled := loop.cancelled ++ (departed loop.array array).map (id, ·) }

/-- A run that stops keeps the state it stopped in. -/
def TimeoutLoop.ops (loop : TimeoutLoop P) (machine : Machine) :
    List (TimeoutOp P) → Except (TimeoutLoop P × TimeoutFault P) (TimeoutLoop P)
  | [] => .ok loop
  | op :: rest =>
    match loop.op machine op with
    | none => .error (loop, .op op)
    | some next => next.ops machine rest

def TimeoutLoop.pluginDestroy (loop : TimeoutLoop P) (plugin : P) : Option (TimeoutLoop P) :=
  (loop.array.pluginDestroy fun call => call.context = some plugin).map fun array =>
    { loop with
      array := array
      destroyed := loop.destroyed ++ (departed loop.array array).map (plugin, ·) }

def moveContext (original plugin : P) (context : Option P) : Option P :=
  if context = some original then some plugin else context

def TimeoutLoop.migrate (loop : TimeoutLoop P) (original plugin : P) : TimeoutLoop P :=
  { loop with
    array := loop.array.migrate fun call =>
      { call with context := moveContext original plugin call.context }
    added := loop.added.map fun addition => (addition.1, moveContext original plugin addition.2) }

/-- The loop of `loop_run` goes on until the first timeout is not due. A crash leaves it. -/
def TimeoutLoop.process (machine : Machine) :
    Nat → TimeoutLoop P → List (TimeoutCallback P) →
      Except (TimeoutLoop P × TimeoutFault P) (TimeoutLoop P)
  | 0, loop, _ => .ok loop
  | rounds + 1, loop, callbacks =>
    match loop.array.takeDue loop.now with
    | none => .error (loop, .memory)
    | some none => .ok loop
    | some (some (timeout, array)) => do
      let callback := callbacks.headD ⟨[], false⟩
      let fired := { loop with array := array, fired := loop.fired ++ [(loop.now, timeout)] }
      let next ← fired.ops machine callback.ops
      if callback.crashes then .ok next else next.process machine rounds callbacks.tail

/-- A new timeout is not due at once, so the rounds are at most as many as the timeouts. -/
def TimeoutLoop.step (machine : Machine) (loop : TimeoutLoop P) :
    TimeoutEvent P → Except (TimeoutLoop P × TimeoutFault P) (TimeoutLoop P)
  | .call op => loop.ops machine [op]
  | .destroy plugin =>
    match loop.pluginDestroy plugin with
    | none => .error (loop, .memory)
    | some next => .ok next
  | .migrate original plugin => .ok (loop.migrate original plugin)
  | .tick elapsed => .ok { loop with now := loop.now + elapsed }
  | .process callbacks => loop.process machine loop.array.count callbacks

def TimeoutLoop.run (loop : TimeoutLoop P) (machine : Machine) (events : List (TimeoutEvent P)) :
    Except (TimeoutLoop P × TimeoutFault P) (TimeoutLoop P) :=
  events.foldlM (step machine) loop

end Run

end Ucollect.Core
