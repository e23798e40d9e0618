import Ucollect.Construction.Fwup.Queue
import Ucollect.Library.Outcomes
import Ucollect.Proof.Uplink.Timeouts

/-
A child that ends with an error is noticed while it is the one the queue writes to. A flush, an
end of file or a failed send make the queue forget the child before its status arrives.
-/

namespace Ucollect.Fwup
open Core Library List Function

variable {world next : QueueWorld}

/-- The flags of the queue agree with its timeouts and its pipe. -/
structure QueueWorld.Steady (world : QueueWorld) : Prop where
  distinct : world.timers.ids.Nodup
  flush : world.timers.pending .flush =
    if world.queue.timeoutStarted then [world.queue.timeoutId] else []
  retry : (world.timers.pending .retry).length = if world.queue.broken then 1 else 0
  started : world.queue.timeoutStarted = true → world.queue.active = true
  stopped : world.queue.broken = true → world.queue.active = false
  pipe : world.queue.active = true → world.queue.ipsetPipe ≠ 0 ∧ world.queue.ipsetPipe ∈ world.fds

/-- The child of an active queue is the only one that has not been lost sight of. -/
structure QueueWorld.Attached (world : QueueWorld) : Prop where
  distinct : (world.children.map (·.pid)).Nodup
  listed : world.queue.active = true → world.queue.pid ∈ world.children.map (·.pid)
  current : ∀ child ∈ world.children,
    (child.current = true ↔ world.queue.active = true ∧ world.queue.pid = child.pid)

/-- The checks of the queue itself never fail. -/
def Bearable (fault : QueueFault) : Prop := fault ≠ .sanity

def Never (_ : QueueFault) : Prop := False

theorem length_timeouts (timers : Timers QueueTimer) :
    timers.timeouts.length = (timers.pending .flush).length + (timers.pending .retry).length := by
  rw [Timers.pending, Timers.pending, length_map, length_map]
  induction timers.timeouts with
  | nil => rfl
  | cons timeout rest ih =>
    cases called : timeout.callback with
    | flush =>
      simp only [filter_cons, called, decide_true, if_true, length_cons, ih]
      simp
      omega
    | retry =>
      simp only [filter_cons, called, decide_true, if_true, length_cons, ih]
      simp
      omega

/-- There is room for another timeout. -/
theorem QueueWorld.Steady.few (steady : world.Steady) :
    world.timers.timeouts.length < MemPool.Machine.wide.limit := by
  have flush := congrArg List.length steady.flush
  have retry := steady.retry
  have bound : 3 < MemPool.Machine.wide.limit := by decide
  rw [length_timeouts]
  split at flush <;> split at retry <;> simp only [length_cons, length_nil] at flush <;>
    omega

/-- A queue that is let go keeps its other data. -/
structure QueueWorld.Released (world next : QueueWorld) : Prop where
  steady : next.Steady
  idle : next.queue.active = false
  children : next.children = world.children
  broken : next.queue.broken = world.queue.broken

theorem QueueWorld.deactivate_spec (steady : world.Steady) (active : world.queue.active = true)
    (error : Bool) : Concludes (Released world) Never (world.deactivate error) := by
  have closed : Concludes (fun middle : QueueWorld => middle.queue = world.queue ∧
      middle.timers = world.timers ∧ middle.children = world.children) Never
        (world.closePipe error) := by
    rw [closePipe]
    split
    · exact ⟨rfl, rfl, rfl⟩
    · rw [close, if_pos (steady.pipe active).2]
      exact ⟨rfl, rfl, rfl⟩
  apply Concludes.bind closed
  rintro middle ⟨queue, timers, children⟩
  simp only [queue]
  split
  case isTrue started =>
    obtain ⟨found, cancelled⟩ : ∃ found, world.timers.cancel world.queue.timeoutId = some found := by
      have pending := steady.flush
      rw [if_pos started] at pending
      have member : world.queue.timeoutId ∈ world.timers.ids := by
        obtain ⟨timeout, member, -, same⟩ := Timers.mem_pending.mp
          (by rw [pending]; exact mem_singleton_self _)
        exact List.mem_map.mpr ⟨timeout, member, same⟩
      rw [Timers.cancel, if_pos member]
      exact ⟨_, rfl⟩
    have alone := steady.flush
    rw [if_pos started] at alone
    have apart : world.queue.timeoutId ∉ world.timers.pending .retry := by
      intro there
      have here : world.queue.timeoutId ∈ world.timers.pending .flush := by
        rw [alone]
        exact mem_singleton_self _
      cases Timers.pending_unique steady.distinct here there
    simp only [cancelTimeout, timers, cancelled]
    refine ⟨⟨Timers.cancel_nodup cancelled steady.distinct,
      Timers.cancel_pending cancelled steady.distinct alone, ?_, ?_, ?_, ?_⟩, rfl, children, rfl⟩
    · show (found.pending .retry).length = _
      rw [Timers.cancel_pending_other _ cancelled apart]
      exact steady.retry
    · exact fun impossible => by cases impossible
    · exact fun _ => rfl
    · exact fun impossible => by cases impossible
  case isFalse quiet =>
    refine ⟨⟨?_, ?_, ?_, ?_, ?_, ?_⟩, rfl, children, rfl⟩
    · exact timers ▸ steady.distinct
    · have flush := steady.flush
      simpa [timers] using flush
    · have retry := steady.retry
      simpa [timers] using retry
    · exact fun started => absurd started quiet
    · exact fun _ => rfl
    · exact fun impossible => by cases impossible

theorem QueueWorld.breakDown_spec (steady : world.Steady) (idle : world.queue.active = false)
    (whole : world.queue.broken = false) :
    Concludes (fun next : QueueWorld => next.Steady ∧ next.queue.active = false ∧
      next.children = world.children ∧ next.queue.broken = true) Never world.breakDown := by
  obtain ⟨id, timers, added⟩ := Timers.add_some steady.few world.now queueRetryTime .retry
  have none_pending : world.timers.pending .retry = [] := by
    have retry := steady.retry
    rw [whole] at retry
    exact eq_nil_of_length_eq_zero retry
  simp only [breakDown, addTimeout, added, bind, Except.bind]
  refine ⟨⟨Timers.add_nodup added steady.distinct, ?_, ?_, steady.started, fun _ => idle,
    steady.pipe⟩, idle, rfl, rfl⟩
  · show timers.pending .flush = _
    rw [Timers.add_pending_other _ added (by decide)]
    exact steady.flush
  · show (timers.pending .retry).length = _
    rw [Timers.add_pending added none_pending]
    rfl

/-- After `lost` the queue has no child, and an error has broken it. -/
theorem QueueWorld.lost_spec (steady : world.Steady) (error : Bool) :
    Concludes (fun next : QueueWorld => next.Steady ∧ next.queue.active = false ∧
      next.children = world.children ∧ next.queue.broken = (world.queue.broken || error))
        Never (world.lost error) := by
  rw [lost]
  split
  case isTrue broken => exact ⟨steady, steady.stopped broken, rfl, by rw [broken]; rfl⟩
  case isFalse whole =>
    have whole : world.queue.broken = false := by simpa using whole
    have released : Concludes (Released world) Never (world.release error) := by
      rw [release]
      split
      case isTrue active => exact deactivate_spec steady active error
      case isFalse idle => exact ⟨steady, by simpa using idle, rfl, rfl⟩
    apply Concludes.bind released
    intro middle release
    cases error with
    | true =>
      apply (breakDown_spec release.steady release.idle (release.broken.trans whole)).weaken
      · rintro value ⟨kept, idle, children, broken⟩
        exact ⟨kept, idle, children.trans release.children, by rw [broken, Bool.or_true]⟩
      · exact fun _ impossible => impossible
    | false =>
      exact ⟨release.steady, release.idle, release.children,
        by rw [release.broken, Bool.or_false]⟩

theorem QueueWorld.Attached.of_idle (distinct : (world.children.map (·.pid)).Nodup)
    (idle : world.queue.active = false) (old : ∀ child ∈ world.children, child.current = false) :
    world.Attached where
  distinct := distinct
  listed := fun active => by
    rw [idle] at active
    cases active
  current := fun child member => by
    rw [old child member, idle]
    simp

theorem QueueWorld.outdate_pids (world : QueueWorld) :
    world.outdate.children.map (·.pid) = world.children.map (·.pid) := by
  rw [outdate, List.map_map]
  rfl

theorem QueueWorld.outdate_current (world : QueueWorld) :
    ∀ child ∈ world.outdate.children, child.current = false := by
  intro child member
  obtain ⟨before, -, rfl⟩ := List.mem_map.mp member
  rfl

/-- This is the invariant of the runs. -/
def QueueWorld.Coherent (world : QueueWorld) : Prop := world.Steady ∧ world.Attached

/-- A child that is let go is not current any more. -/
theorem QueueWorld.lost_outdate (steady : world.Steady)
    (distinct : (world.children.map (·.pid)).Nodup) (error : Bool) :
    Concludes Coherent Bearable (world.outdate.lost error) := by
  have outdated : world.outdate.Steady :=
    ⟨steady.distinct, steady.flush, steady.retry, steady.started, steady.stopped, steady.pipe⟩
  apply (lost_spec outdated error).weaken
  · rintro value ⟨kept, idle, children, -⟩
    refine ⟨kept, Attached.of_idle ?_ idle ?_⟩
    · rw [children, outdate_pids]
      exact distinct
    · rw [children]
      exact outdate_current world
  · exact fun _ impossible => impossible.elim

section

variable (coherent : world.Coherent)
include coherent

theorem QueueWorld.ensure_spec (whole : world.queue.broken = false) (launch : Launch) :
    Concludes (fun next : QueueWorld => next.Coherent ∧ next.queue.active = true ∧
      next.queue.broken = false) Bearable (world.ensure launch) := by
  obtain ⟨steady, attached⟩ := coherent
  rw [ensure]
  split
  case isTrue active => exact ⟨⟨steady, attached⟩, active, whole⟩
  case isFalse idle =>
    rw [start, if_neg idle]
    split
    case isTrue taken => exact fun impossible => by cases impossible
    case isFalse free =>
      push Not at free
      obtain ⟨newPid, newFd, positive⟩ := free
      refine ⟨⟨⟨steady.distinct, steady.flush, steady.retry, fun _ => rfl, ?_, ?_⟩, ?_, ?_, ?_⟩,
        rfl, whole⟩
      · intro broken
        exact absurd (whole.symm.trans broken) (by decide)
      · exact fun _ => ⟨positive, mem_cons_self⟩
      · exact nodup_cons.mpr ⟨newPid, attached.distinct⟩
      · exact fun _ => mem_cons_self
      · intro child member
        rcases mem_cons.mp member with rfl | old
        · simp
        · have other : child.pid ≠ launch.pid := by
            rintro same
            exact newPid (List.mem_map.mpr ⟨child, old, same⟩)
          have forgotten : ¬ child.current = true := by
            rw [attached.current child old]
            exact fun stays => idle stays.1
          simp [forgotten, Ne.symm other]

theorem QueueWorld.feed_coherent : world.feed.Coherent := by
  obtain ⟨steady, attached⟩ := coherent
  have pids : world.feed.children.map (·.pid) = world.children.map (·.pid) := by
    rw [feed, List.map_map]
    apply map_congr_left
    intro child _
    simp only [comp_apply]
    split <;> rfl
  refine ⟨⟨steady.distinct, steady.flush, steady.retry, steady.started, steady.stopped,
    steady.pipe⟩, ?_, ?_, ?_⟩
  · rw [pids]
    exact attached.distinct
  · rw [pids]
    exact attached.listed
  · intro child member
    obtain ⟨before, old, rfl⟩ := List.mem_map.mp member
    have current := attached.current before old
    split <;> exact current

theorem QueueWorld.transmit_spec (active : world.queue.active = true) (order : Order) :
    Concludes Coherent Bearable (world.transmit order) := by
  have fed : (if (sendCommand order.command.length order.writes).1 then world.feed
      else world).Coherent ∧ (if (sendCommand order.command.length order.writes).1 then world.feed
      else world).queue = world.queue := by
    split
    · exact ⟨feed_coherent coherent, rfl⟩
    · exact ⟨coherent, rfl⟩
  rw [transmit]
  revert fed
  generalize (if (sendCommand order.command.length order.writes).1 then world.feed else world) =
    middle
  rintro ⟨⟨steady, attached⟩, queue⟩
  dsimp only
  split
  case isTrue reset => exact lost_outdate steady attached.distinct true
  case isFalse sent =>
    split
    case isTrue started => exact ⟨steady, attached⟩
    case isFalse quiet =>
      obtain ⟨id, timers, added⟩ := Timers.add_some steady.few middle.now queueFlushTime .flush
      have none_pending : middle.timers.pending .flush = [] := by
        rw [steady.flush, if_neg quiet]
      simp only [addTimeout, added, bind, Except.bind]
      refine ⟨⟨Timers.add_nodup added steady.distinct, Timers.add_pending added none_pending, ?_,
        fun _ => by rw [queue]; exact active, steady.stopped, steady.pipe⟩, attached.distinct,
        attached.listed, attached.current⟩
      show (timers.pending .retry).length = _
      rw [Timers.add_pending_other _ added (by decide)]
      exact steady.retry

theorem QueueWorld.enqueue_spec (order : Order) :
    Concludes Coherent Bearable (world.enqueue order) := by
  rw [enqueue]
  split
  case isTrue broken => exact coherent
  case isFalse whole =>
    apply Concludes.bind (ensure_spec coherent (by simpa using whole) order.launch)
    rintro middle ⟨kept, active, -⟩
    have pipe := (kept.1.pipe active).1
    rw [if_neg (by simp [active, pipe])]
    split
    · exact fun impossible => by cases impossible
    · exact transmit_spec kept active order

theorem QueueWorld.enqueueAll_spec (orders : List Order) :
    Concludes Coherent Bearable (world.enqueueAll orders) :=
  concludes_foldlM coherent fun _ kept order _ => enqueue_spec kept order

/-- The timeout that fires is the one its flag speaks of. -/
theorem QueueWorld.fire_spec (reload : List Order) :
    Concludes Coherent Bearable (world.fire reload) := by
  obtain ⟨steady, attached⟩ := coherent
  rw [fire]
  split
  case h_1 => exact fun impossible => by cases impossible
  case h_2 timeout rest first =>
    split
    case isFalse early => exact fun impossible => by cases impossible
    case isTrue due =>
      have distinct : ({ world.timers with timeouts := rest } : Timers QueueTimer).ids.Nodup := by
        have ids := steady.distinct
        rw [Timers.ids, first, map_cons, nodup_cons] at ids
        exact ids.2
      have flush := steady.flush
      have retry := steady.retry
      rw [Timers.pending_fired first] at flush retry
      split
      case h_1 called =>
        rw [called, if_pos rfl] at flush
        rw [called, if_neg (by decide)] at retry
        have started : world.queue.timeoutStarted = true := by
          by_contra quiet
          rw [if_neg quiet] at flush
          cases flush
        rw [if_pos started] at flush
        exact @lost_outdate { world with
            timers := { world.timers with timeouts := rest }
            queue := { world.queue with timeoutStarted := false } }
          ⟨distinct, (List.cons.inj flush).2, retry, (fun impossible => by cases impossible),
            steady.stopped, steady.pipe⟩ attached.distinct false
      case h_2 called =>
        rw [called, if_neg (by decide)] at flush
        rw [called, if_pos rfl] at retry
        have broken : world.queue.broken = true := by
          by_contra whole
          rw [if_neg whole] at retry
          cases retry
        rw [if_pos broken] at retry
        have idle := steady.stopped broken
        have quiet : ¬ world.queue.timeoutStarted = true := fun started =>
          absurd (idle.symm.trans (steady.started started)) (by decide)
        rw [retryTimeout, if_neg quiet]
        apply enqueueAll_spec
        exact ⟨⟨distinct, flush, Nat.succ.inj retry, steady.started,
          (fun impossible => by cases impossible), steady.pipe⟩, attached.distinct,
          attached.listed, attached.current⟩

theorem QueueWorld.fdData_spec {fd : Nat} (known : fd ∈ world.fds) (reading : Reading) :
    Concludes Coherent Bearable
      ((if reading = .closed then world.outdate else world).queueFdData fd reading) := by
  obtain ⟨steady, attached⟩ := coherent
  cases reading with
  | text => exact ⟨steady, attached⟩
  | later => exact ⟨steady, attached⟩
  | closed =>
    rw [if_pos rfl, queueFdData]
    split
    case isTrue active => exact lost_outdate steady attached.distinct false
    case isFalse idle =>
      have idle : world.queue.active = false := Bool.eq_false_of_not_eq_true idle
      rw [close, if_pos (show fd ∈ world.outdate.fds from known)]
      refine ⟨⟨steady.distinct, steady.flush, steady.retry, steady.started, steady.stopped, ?_⟩,
        Attached.of_idle ?_ idle (outdate_current world)⟩
      · intro active
        exact absurd (idle.symm.trans active) (by decide)
      · exact outdate_pids world ▸ attached.distinct

/-- The status of a child counts while the queue has not forgotten it. -/
theorem QueueWorld.died_spec (pid : Nat) (status : ChildStatus) :
    Concludes (fun next : QueueWorld => next.Coherent ∧
      (next.queue.broken = true ↔ world.queue.broken = true ∨
        status ≠ .exited 0 ∧ world.queue.active = true ∧ world.queue.pid = pid)) Never
      (world.step (.died pid status)) := by
  obtain ⟨steady, attached⟩ := coherent
  have distinct : ((world.children.filter fun child => child.pid ≠ pid).map (·.pid)).Nodup :=
    attached.distinct.sublist (filter_sublist.map _)
  rw [step, queueChildDied]
  split
  case isTrue idle =>
    have idle : world.queue.active = false := by simpa using idle
    refine ⟨⟨⟨steady.distinct, steady.flush, steady.retry, steady.started, steady.stopped,
      steady.pipe⟩, distinct, ?_, ?_⟩, ?_⟩
    · intro active
      exact absurd (idle.symm.trans active) (by decide)
    · exact fun child member => attached.current child (mem_of_mem_filter member)
    · simp [idle]
  case isFalse active =>
    have active : world.queue.active = true := by simpa using active
    split
    case isTrue other =>
      refine ⟨⟨⟨steady.distinct, steady.flush, steady.retry, steady.started, steady.stopped,
        steady.pipe⟩, distinct, ?_, ?_⟩, ?_⟩
      · intro _
        obtain ⟨child, member, same⟩ := List.mem_map.mp (attached.listed active)
        refine List.mem_map.mpr ⟨child, mem_filter.mpr ⟨member, ?_⟩, same⟩
        simpa [same] using other
      · exact fun child member => attached.current child (mem_of_mem_filter member)
      · simp [other]
    case isFalse same =>
      have same : world.queue.pid = pid := by simpa using same
      have filtered : ({ world with children := world.children.filter fun child =>
          child.pid ≠ pid } : QueueWorld).Steady :=
        ⟨steady.distinct, steady.flush, steady.retry, steady.started, steady.stopped,
          steady.pipe⟩
      apply (lost_spec filtered (status ≠ .exited 0)).weaken
      · rintro value ⟨kept, idle, children, broken⟩
        refine ⟨⟨kept, Attached.of_idle (children ▸ distinct) idle ?_⟩, ?_⟩
        · intro child member
          rw [children, mem_filter] at member
          obtain ⟨old, different⟩ := member
          have forgotten : ¬ child.current = true := by
            rw [attached.current child old]
            intro stays
            simp [← stays.2, same] at different
          simpa using forgotten
        · rw [broken]
          simp [active, same]
      · exact fun _ impossible => impossible

theorem QueueWorld.step_spec (event : QueueEvent) :
    Concludes Coherent Bearable (world.step event) := by
  cases event with
  | tick elapsed =>
    obtain ⟨steady, attached⟩ := coherent
    exact ⟨⟨steady.distinct, steady.flush, steady.retry, steady.started, steady.stopped,
      steady.pipe⟩, attached.distinct, attached.listed, attached.current⟩
  | enqueue order => exact enqueue_spec coherent order
  | fire reload => exact fire_spec coherent reload
  | fdData fd reading =>
    rw [step]
    split
    case isTrue known => exact fdData_spec coherent known reading
    case isFalse => exact fun impossible => by cases impossible
  | died pid status =>
    apply (died_spec coherent pid status).weaken
    · exact fun _ kept => kept.1
    · exact fun _ impossible => impossible.elim

end

theorem queueAlloc_coherent : queueAlloc.Coherent := by
  refine ⟨⟨nodup_nil, rfl, rfl, ?_, ?_, ?_⟩, nodup_nil, ?_, ?_⟩ <;> simp [queueAlloc]

theorem QueueWorld.run_spec (events : List QueueEvent) :
    Concludes Coherent Bearable (queueAlloc.run events) :=
  concludes_foldlM queueAlloc_coherent fun _ kept event _ => step_spec kept event

/-- A broken queue has one retry ahead of it. -/
theorem QueueWorld.Steady.retry_one (steady : world.Steady) :
    (world.timers.pending .retry).length = 1 ↔ world.queue.broken = true := by
  rw [steady.retry]
  split
  case isTrue broken => simp [broken]
  case isFalse whole => simp [whole]

/-- In every run the end of a child with an error leads to a broken queue and one retry exactly if
the queue was broken before or has not lost sight of the child. -/
theorem QueueWorld.failed_run_noticed {events : List QueueEvent} {world : QueueWorld}
    {child : Child} {status : ChildStatus} (reached : queueAlloc.run events = .ok world)
    (running : child ∈ world.children) (failed : status ≠ .exited 0) :
    ∃ after, world.step (.died child.pid status) = .ok after ∧
      ((after.queue.broken = true ∧ (after.timers.pending .retry).length = 1) ↔
        world.queue.broken = true ∨ child.current = true) := by
  have coherent := (run_spec events).value reached
  have died := died_spec coherent child.pid status
  cases result : world.step (.died child.pid status) with
  | error fault => exact (died.fault result).elim
  | ok after =>
    obtain ⟨kept, broken⟩ := died.value result
    refine ⟨after, rfl, ?_⟩
    rw [kept.1.retry_one, and_self, broken, coherent.2.current child running]
    simp only [failed, ne_eq, not_false_eq_true, true_and]

/-- The command writes one newline to a child. -/
def newlineOrder (pid fd : Nat) : Order := ⟨[10], ⟨pid, fd⟩, []⟩

theorem QueueWorld.failed_run_noticed_first :
    ∃ world, queueAlloc.run [.enqueue (newlineOrder 7 4)] = .ok world ∧
      ∃ after, world.step (.died 7 (.exited 1)) = .ok after ∧
        ((after.queue.broken = true ∧ (after.timers.pending .retry).length = 1) ↔
          world.queue.broken = true ∨ true = true) := by
  refine ⟨_, rfl, ?_⟩
  exact @failed_run_noticed [.enqueue (newlineOrder 7 4)] _ ⟨7, true, true⟩ (.exited 1) rfl
    (by decide) (by decide)

/-- The flush timeout closes the pipe, the child then fails, and nothing is scheduled. -/
theorem QueueWorld.failed_run_overlooked :
    ∃ world after, queueAlloc.run [.enqueue (newlineOrder 7 4), .tick 5000, .fire []] = .ok world ∧
      ⟨7, true, false⟩ ∈ world.children ∧ world.step (.died 7 (.exited 1)) = .ok after ∧
      after.queue.broken = false ∧ after.timers.pending .retry = [] := by
  refine ⟨_, _, rfl, ?_, rfl, ?_, ?_⟩
  · decide
  · decide
  · decide

/-- In every run the flags of the queue agree with its timeouts. The checks of the queue hold, and
every timeout that is cancelled is pending. -/
theorem QueueWorld.run_flags (events : List QueueEvent) :
    match queueAlloc.run events with
    | .ok world =>
      (world.queue.broken = true → world.queue.active = false) ∧
      (world.timers.pending .flush =
        if world.queue.timeoutStarted then [world.queue.timeoutId] else []) ∧
      (world.queue.timeoutStarted = true → world.queue.active = true) ∧
      (world.timers.pending .retry).length = if world.queue.broken then 1 else 0
    | .error fault => fault ≠ .sanity := by
  have reached := run_spec events
  cases run : queueAlloc.run events with
  | ok world =>
    have steady := (reached.value run).1
    exact ⟨steady.stopped, steady.flush, steady.started, steady.retry⟩
  | error fault => exact reached.fault run

end Ucollect.Fwup
