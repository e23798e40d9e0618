import Mathlib.Data.List.DropRight
import Mathlib.Tactic
import Ucollect.Construction.Bandwidth.Windows
import Ucollect.Library.Rings

namespace Ucollect.Bandwidth
open Library List Option

section Contents

/-- The frames of a window are numbered from its first origin on. -/
def frameNumber (origin len : Nat) (now : Moment) : Nat := (now.ms - origin) / len

variable (origin len : Nat)

/-- These bytes of one event belong to the frame. -/
def counted (direction : Direction) (number : Nat) : Event → Nat
  | .packet now own length =>
    if own = direction ∧ frameNumber origin len now = number then length else 0
  | .request _ _ => 0

/-- The bytes of one direction in one frame. -/
def amount (events : List Event) (direction : Direction) (number : Nat) : Nat :=
  (events.map (counted origin len direction number)).sum

/-- Both directions of one frame. -/
def content (events : List Event) (number : Nat) : Frame :=
  ⟨amount origin len events .incoming number, amount origin len events .outgoing number⟩

/-- This is the frame of the latest packet. -/
def newest (events : List Event) : Option Nat :=
  events.reverse.findSome? fun
    | .packet now _ _ => some (frameNumber origin len now)
    | .request _ _ => none

/-- The history ends with the frame of the latest packet. -/
def historyStart (cnt : Nat) (events : List Event) : Nat :=
  match newest origin len events with
  | none => 0
  | some number => number + 1 - cnt

def Event.isRequest : Event → Bool
  | .packet _ _ _ => false
  | .request _ _ => true

/-- These are the events up to the last request. -/
def beforeRequest (events : List Event) : List Event :=
  events.rdropWhile fun event => !event.isRequest

variable (events : List Event) (now : Moment) (direction : Direction) (length : Nat)

theorem content_packet : content origin len (events ++ [.packet now direction length]) =
    Function.update (content origin len events) (frameNumber origin len now)
      ((content origin len events (frameNumber origin len now)).add direction length) := by
  funext number
  by_cases same : number = frameNumber origin len now
  · subst same
    cases direction <;> simp [content, amount, counted, Frame.add]
  · have other : ¬ frameNumber origin len now = number := fun equal => same equal.symm
    simp [content, amount, counted, Function.update_of_ne same, other]

theorem content_request (data : Bytes) :
    content origin len (events ++ [.request now data]) = content origin len events := by
  funext number
  simp [content, amount, counted]

theorem historyStart_packet (cnt : Nat) :
    historyStart origin len cnt (events ++ [.packet now direction length]) =
      frameNumber origin len now + 1 - cnt := by
  simp [historyStart, newest]

theorem historyStart_request (cnt : Nat) (data : Bytes) :
    historyStart origin len cnt (events ++ [.request now data]) =
      historyStart origin len cnt events := by
  simp [historyStart, newest]

theorem beforeRequest_packet : beforeRequest (events ++ [.packet now direction length]) =
    beforeRequest events := by
  simp [beforeRequest, Event.isRequest]

theorem beforeRequest_request (data : Bytes) : beforeRequest (events ++ [.request now data]) =
    events ++ [.request now data] := by
  simp [beforeRequest, Event.isRequest]

/-- The newest frame is the frame of a packet. -/
theorem newest_mem {number : Nat} (latest : newest origin len events = some number) :
    ∃ now direction length, .packet now direction length ∈ events ∧
      frameNumber origin len now = number := by
  obtain ⟨event, member, found⟩ := exists_of_findSome?_eq_some latest
  cases event with
  | packet now direction length =>
    exact ⟨now, direction, length, mem_reverse.mp member, Option.some.inj found⟩
  | request now data => cases found

end Contents

section Windows

variable {window : Window} {now : Moment}

/-- The statistics do not act on the window. -/
theorem rewind_window (now : Moment) (window : Window) (stats other : Stats) :
    (rewind now window stats).1 = (rewind now window other).1 := by
  induction window, stats using rewind.induct now generalizing other with
  | case1 window stats before hypothesis =>
    rw [rewind, rewind.eq_1 now window other, dif_pos before, dif_pos before]
    exact hypothesis _
  | case2 window stats done => rw [rewind, rewind.eq_1 now window other, dif_neg done, dif_neg done]

def noStats : Stats := ⟨[], []⟩

/-- This is a window alone. -/
def Window.step (window : Window) : Event → Window
  | .packet now direction length => (handleWindow now direction length window noStats).1
  | .request _ _ => window.withHistory.reset

theorem handleWindows_fst (now : Moment) (direction : Direction) (length : Nat)
    (windows : List Window) (stats : Stats) :
    (handleWindows now direction length windows stats).1 =
      windows.map fun window => window.step (.packet now direction length) := by
  induction windows generalizing stats with
  | nil => rfl
  | cons window windows hypothesis =>
    rw [handleWindows, hypothesis, map_cons]
    simp only [handleWindow, Window.step]
    rw [rewind_window now _ stats noStats]

/-- Every window goes its own way. -/
theorem run_windows {plugin final : Plugin} {events : List Event}
    (ran : plugin.run events = some final) :
    final.windows = plugin.windows.map fun window => events.foldl Window.step window := by
  induction events generalizing plugin with
  | nil =>
    cases ran
    simp
  | cons event events hypothesis =>
    rw [Plugin.run, foldlM_cons] at ran
    obtain ⟨middle, stepped, rest⟩ := bind_eq_some_iff.mp ran
    have later := hypothesis rest
    have moved : middle.windows = plugin.windows.map fun window => window.step event := by
      cases event with
      | packet now direction length =>
        cases stepped
        exact handleWindows_fst now direction length _ _
      | request now data =>
        simp only [Plugin.step, communicate] at stepped
        split at stepped
        · cases stepped
          rw [List.map_map]
          rfl
        · cases stepped
    rw [later, moved, List.map_map]
    rfl

end Windows

section Tracking

/-- The clock of the start covers the span of the window, the times do not go back, and no packet
comes on the boundary of a frame. -/
structure Regular (start : Moment) (len cnt : Nat) (events : List Event) : Prop where
  late : len * cnt ≤ start.ms
  ordered : (start.ms :: events.map fun event => event.now.ms).Pairwise (· ≤ ·)
  offBoundary : ∀ now direction length, .packet now direction length ∈ events →
    ¬ len ∣ now.ms - start.ms

/-- The window holds its part of an endless tape. -/
structure Window.On (window : Window) (origin len cnt : Nat) (tape : Nat → Frame) (base : Nat) :
    Prop where
  lenEq : window.len = len
  cntEq : window.cnt = cnt
  timestamp : window.timestamp = origin + base * len
  current : window.currentFrame = base % cnt
  holds : Holds window.frames tape base
  fresh : ∀ number, base + cnt ≤ number → tape number = .empty

/-- The maxima cover a range of the tape. -/
structure Window.Covers (window : Window) (tape : Nat → Frame) (first last : Nat) : Prop where
  inPeak : Peak (fun number => (tape number).inSum) first last window.inMax
  outPeak : Peak (fun number => (tape number).outSum) first last window.outMax
  order : first ≤ last

variable {window : Window} {origin len cnt first base : Nat} {tape : Nat → Frame} {now : Moment}

section

variable (on : window.On origin len cnt tape base)
include on

theorem Window.On.size : window.frames.length = cnt :=
  window.filled.trans on.cntEq

theorem Window.On.oldest : window.oldest = tape base := by
  have two := window.cntTwo
  have size := window.filled
  rw [Window.oldest, on.current, ← on.cntEq, ← size]
  exact on.holds.getD _ (Nat.le_refl _) (by omega)

theorem Window.On.finish (near : origin + (base + cnt) * len < 2 ^ 64) :
    window.finish = origin + (base + cnt) * len := by
  rw [Window.finish, on.timestamp, on.lenEq, on.cntEq, clockModulus]
  rw [Nat.add_mul] at near ⊢
  rw [Nat.mul_comm len cnt, Nat.mod_eq_of_lt (by omega)]
  omega

/-- A rotation moves the window by one frame. -/
theorem Window.On.rotate (near : origin + (base + 1) * len < 2 ^ 64) :
    window.rotate.On origin len cnt tape (base + 1) where
  lenEq := on.lenEq
  cntEq := on.cntEq
  timestamp := by
    change (window.timestamp + window.len) % clockModulus = _
    rw [on.timestamp, on.lenEq, clockModulus]
    rw [Nat.add_mul, Nat.one_mul] at near ⊢
    rw [Nat.mod_eq_of_lt (by omega)]
    omega
  current := by
    change (window.currentFrame + 1) % window.cnt = _
    rw [on.current, on.cntEq, Nat.mod_add_mod]
  holds := by
    change Holds (window.frames.set window.currentFrame .empty) tape (base + 1)
    rw [on.current, ← on.size]
    exact on.holds.advance (on.fresh _ (by rw [on.size]))
  fresh number behind := on.fresh number (by omega)

end

theorem Window.Covers.raise {last : Nat} (covers : window.Covers tape first last) :
    (window.raise (tape last)).Covers tape first (last + 1) where
  inPeak := covers.inPeak.extend covers.order
  outPeak := covers.outPeak.extend covers.order
  order := Nat.le_succ_of_le covers.order

theorem Window.Covers.rotate (covers : window.Covers tape first base)
    (on : window.On origin len cnt tape base) : window.rotate.Covers tape first (base + 1) := by
  have raised := covers.raise
  rw [← on.oldest] at raised
  exact ⟨raised.inPeak, raised.outPeak, raised.order⟩

variable {number : Nat}

section

variable (on : window.On origin len cnt tape base)
include on

/-- The tape is rewound until its newest frame is the one of the packet. -/
theorem Window.On.rewind (covers : window.Covers tape first base) (stats : Stats)
    (ahead : base + cnt ≤ number + 1) (small : len < 2 ^ 62)
    (after : origin + number * len < now.ms) (before : now.ms < origin + (number + 1) * len) :
    (Bandwidth.rewind now window stats).1.On origin len cnt tape (number + 1 - cnt) ∧
      (Bandwidth.rewind now window stats).1.Covers tape first (number + 1 - cnt) := by
  obtain ⟨rest, total⟩ : ∃ rest, base + cnt + rest = number + 1 :=
    ⟨number + 1 - (base + cnt), by omega⟩
  have bounded := now.bounded
  rw [Nat.add_mul, Nat.one_mul] at before
  induction rest generalizing window base stats with
  | zero =>
    have near : origin + (base + cnt) * len = origin + number * len + len := by
      rw [show base + cnt = number + 1 by omega, Nat.add_mul, Nat.one_mul]
      omega
    have finish := on.finish (by omega)
    have stop : ¬ window.finish < now.ms := by omega
    rw [Bandwidth.rewind, dif_neg stop, show number + 1 - cnt = base by omega]
    exact ⟨on, covers⟩
  | succ rest hypothesis =>
    have least : (base + cnt) * len ≤ number * len := Nat.mul_le_mul_right _ (by omega)
    have two := window.cntTwo
    have cntEq := on.cntEq
    have next : (base + 1) * len ≤ (base + cnt) * len := Nat.mul_le_mul_right _ (by omega)
    have finish := on.finish (by omega)
    have go : window.finish < now.ms := by omega
    rw [Bandwidth.rewind, dif_pos go]
    exact hypothesis (on.rotate (by omega)) (covers.rotate on) _ (by omega) (by omega)

theorem Window.On.correspondingFrame (lower : base ≤ frameNumber origin len now)
    (started : origin ≤ now.ms) :
    window.correspondingFrame now = frameNumber origin len now % cnt := by
  have positive : 0 < len := on.lenEq ▸ window.lenPositive
  have below : len * base ≤ now.ms - origin := by
    rw [Nat.mul_comm]
    exact (Nat.le_div_iff_mul_le positive).mp lower
  have bounded := now.bounded
  have elapsed : (now.ms + clockModulus - window.timestamp) % clockModulus =
      now.ms - origin - len * base := by
    rw [on.timestamp, clockModulus, Nat.mul_comm base len]
    omega
  rw [Window.correspondingFrame, elapsed, on.lenEq, on.cntEq, on.current,
    Nat.sub_mul_div_of_le _ _ _ below, Nat.mod_add_mod]
  congr 1
  exact Nat.add_sub_of_le lower

/-- A packet is added to its own frame. -/
theorem Window.On.change (direction : Direction) (length : Nat) (lower : base ≤ number)
    (upper : number < base + cnt) :
    (window.change (number % cnt) direction length).On origin len cnt
      (Function.update tape number ((tape number).add direction length)) base where
  lenEq := on.lenEq
  cntEq := on.cntEq
  timestamp := on.timestamp
  current := on.current
  holds := by
    have changed := on.holds.modify (fun frame => frame.add direction length) lower
      (by rw [on.size]; exact upper)
    rw [on.size] at changed
    exact changed
  fresh other behind := by
    rw [Function.update_of_ne (by omega)]
    exact on.fresh other behind

end

/-- A change behind the covered range does not matter. -/
theorem Window.Covers.change {last : Nat} (covers : window.Covers tape first last)
    (direction : Direction) (length place : Nat) (behind : last ≤ number) (frame : Frame) :
    (window.change place direction length).Covers (Function.update tape number frame) first last
      where
  inPeak := by
    refine covers.inPeak.congr fun position _ before => ?_
    rw [Function.update_of_ne (by omega)]
  outPeak := by
    refine covers.outPeak.congr fun position _ before => ?_
    rw [Function.update_of_ne (by omega)]
  order := covers.order

/-- A report adds the frames of the history to the maxima. -/
theorem Window.On.withHistory (on : window.On origin len cnt tape base)
    (covers : window.Covers tape first base) :
    window.withHistory.On origin len cnt tape base ∧
      window.withHistory.Covers tape first (base + cnt) := by
  have turned (turns : Nat) (inside : turns ≤ cnt) :
      ((List.range turns).foldl (fun current frame => current.raise
        (window.frames.getD ((window.currentFrame + frame) % window.cnt) .empty)) window).On
          origin len cnt tape base ∧
      ((List.range turns).foldl (fun current frame => current.raise
        (window.frames.getD ((window.currentFrame + frame) % window.cnt) .empty)) window).Covers
          tape first (base + turns) := by
    induction turns with
    | zero => exact ⟨on, covers⟩
    | succ turns hypothesis =>
      obtain ⟨kept, covered⟩ := hypothesis (by omega)
      have stored : window.frames.getD ((window.currentFrame + turns) % window.cnt) .empty =
          tape (base + turns) := by
        rw [on.current, on.cntEq, Nat.mod_add_mod, ← on.size]
        exact on.holds.getD _ (by omega) (by rw [on.size]; omega)
      rw [range_succ, foldl_append, foldl_cons, foldl_nil, stored]
      exact ⟨⟨kept.lenEq, kept.cntEq, kept.timestamp, kept.current, kept.holds, kept.fresh⟩,
        covered.raise⟩
  have all := turned window.cnt (by rw [on.cntEq])
  rw [on.cntEq] at all
  rw [Window.withHistory, on.cntEq]
  exact all

theorem Window.On.reset (on : window.On origin len cnt tape base) :
    window.reset.On origin len cnt tape base :=
  ⟨on.lenEq, on.cntEq, on.timestamp, on.current, on.holds, on.fresh⟩

theorem Window.reset_covers (window : Window) (tape : Nat → Frame) (base : Nat) :
    window.reset.Covers tape base base where
  inPeak := peak_empty _ _
  outPeak := peak_empty _ _
  order := Nat.le_refl _

end Tracking

section Runs

variable {start : Moment} {len cnt : Nat} {events : List Event}

variable {event : Event}

theorem Regular.front (regular : Regular start len cnt (events ++ [event])) :
    Regular start len cnt events where
  late := regular.late
  ordered := by
    have ordered := regular.ordered
    rw [map_append, ← cons_append] at ordered
    exact (pairwise_append.mp ordered).1
  offBoundary now direction length member :=
    regular.offBoundary now direction length (mem_append_left _ member)

theorem Regular.started (regular : Regular start len cnt events) (member : event ∈ events) :
    start.ms ≤ event.now.ms :=
  (pairwise_cons.mp regular.ordered).1 _ (List.mem_map_of_mem member)

theorem Regular.last (regular : Regular start len cnt (events ++ [event])) :
    start.ms ≤ event.now.ms ∧ ∀ other ∈ events, other.now.ms ≤ event.now.ms := by
  have ordered := regular.ordered
  rw [map_append, ← cons_append] at ordered
  have later := (pairwise_append.mp ordered).2.2
  constructor
  · exact later _ mem_cons_self _ (by simp)
  · intro other member
    exact later _ (mem_cons_of_mem _ (List.mem_map_of_mem member)) _ (by simp)

/-- A packet after the start has a number behind the first history. -/
theorem cnt_le_frameNumber (positive : 0 < len) (late : len * cnt ≤ start.ms) {now : Moment}
    (started : start.ms ≤ now.ms) : cnt ≤ frameNumber (start.ms - len * cnt) len now := by
  rw [frameNumber, Nat.le_div_iff_mul_le positive, Nat.mul_comm]
  omega

/-- The history never runs ahead of the next packet. -/
theorem Regular.ahead (positive : 0 < len) {now : Moment} {direction : Direction} {length : Nat}
    (regular : Regular start len cnt (events ++ [.packet now direction length])) :
    historyStart (start.ms - len * cnt) len cnt events + cnt ≤
      frameNumber (start.ms - len * cnt) len now + 1 := by
  obtain ⟨started, later⟩ := regular.last
  have behind := cnt_le_frameNumber positive regular.late started
  rw [historyStart]
  cases latest : newest (start.ms - len * cnt) len events with
  | none =>
    change cnt ≤ frameNumber _ _ now at behind
    simp only
    omega
  | some number =>
    obtain ⟨before, own, size, member, same⟩ := newest_mem _ _ _ latest
    have order : number ≤ frameNumber (start.ms - len * cnt) len now := by
      rw [← same]
      exact Nat.div_le_div_right (Nat.sub_le_sub_right (later _ member) _)
    have first : cnt ≤ number := by
      rw [← same]
      exact cnt_le_frameNumber positive regular.late (regular.front.started member)
    simp only
    omega

/-- The window follows the tape of its packets. -/
structure Window.Tracks (window : Window) (start : Moment) (len cnt : Nat) (events : List Event) :
    Prop where
  on : window.On (start.ms - len * cnt) len cnt (content (start.ms - len * cnt) len events)
    (historyStart (start.ms - len * cnt) len cnt events)
  covers : window.Covers (content (start.ms - len * cnt) len events)
    (historyStart (start.ms - len * cnt) len cnt (beforeRequest events))
    (historyStart (start.ms - len * cnt) len cnt events)

theorem initWindow_tracks (lenPositive : 0 < len) (cntTwo : 2 ≤ cnt) (short : len * cnt < 2 ^ 62)
    (late : len * cnt ≤ start.ms) :
    (initWindow len cnt start lenPositive cntTwo short).Tracks start len cnt [] where
  on := {
    lenEq := rfl
    cntEq := rfl
    timestamp := by
      have bounded := start.bounded
      change delayedTimestamp start.ms len cnt = start.ms - len * cnt + 0 * len
      rw [delayedTimestamp, clockModulus]
      omega
    current := (Nat.zero_mod cnt).symm
    holds := by
      intro position lower upper
      change (List.replicate cnt Frame.empty)[position % (List.replicate cnt Frame.empty).length]? =
        some Frame.empty
      rw [List.getElem?_replicate, length_replicate, if_pos (Nat.mod_lt _ (by omega))]
    fresh := fun _ _ => rfl }
  covers := {
    inPeak := peak_empty _ _
    outPeak := peak_empty _ _
    order := Nat.le_refl _ }

variable {window : Window} {now : Moment}

theorem Window.Tracks.request (tracks : window.Tracks start len cnt events) (data : Bytes) :
    (window.step (.request now data)).Tracks start len cnt (events ++ [.request now data]) := by
  obtain ⟨on, -⟩ := tracks.on.withHistory tracks.covers
  constructor
  case on =>
    rw [content_request, historyStart_request]
    exact on.reset
  case covers =>
    rw [beforeRequest_request]
    exact Window.reset_covers _ _ _

/-- A packet keeps the window on its tape. -/
theorem Window.Tracks.packet (tracks : window.Tracks start len cnt events) (direction : Direction)
    (length : Nat) (regular : Regular start len cnt (events ++ [.packet now direction length])) :
    (window.step (.packet now direction length)).Tracks start len cnt
      (events ++ [.packet now direction length]) := by
  have positive : 0 < len := tracks.on.lenEq ▸ window.lenPositive
  have two : 2 ≤ cnt := tracks.on.cntEq ▸ window.cntTwo
  have late := regular.late
  have started : start.ms ≤ now.ms := regular.last.1
  have ahead := regular.ahead positive
  have behind := cnt_le_frameNumber positive late started
  have small : len < 2 ^ 62 := by
    have short := window.short
    rw [tracks.on.lenEq, tracks.on.cntEq] at short
    exact lt_of_le_of_lt (Nat.le_mul_of_pos_right _ (by omega)) short
  have off := regular.offBoundary now direction length (by simp)
  have lower : frameNumber (start.ms - len * cnt) len now * len ≤ now.ms - (start.ms - len * cnt) :=
    Nat.div_mul_le_self _ _
  have upper : now.ms - (start.ms - len * cnt) <
      (frameNumber (start.ms - len * cnt) len now + 1) * len :=
    (Nat.div_lt_iff_lt_mul positive).mp (Nat.lt_succ_self _)
  have inside : frameNumber (start.ms - len * cnt) len now * len ≠
      now.ms - (start.ms - len * cnt) := by
    intro same
    apply off
    have divides : len ∣ now.ms - (start.ms - len * cnt) := ⟨_, by rw [← same, Nat.mul_comm]⟩
    have shifted : now.ms - (start.ms - len * cnt) = now.ms - start.ms + len * cnt := by omega
    rw [shifted] at divides
    exact (Nat.dvd_add_left (Nat.dvd_mul_right len cnt)).mp divides
  have timestamp := tracks.on.timestamp
  have first : historyStart (start.ms - len * cnt) len cnt events * len ≤
      frameNumber (start.ms - len * cnt) len now * len := Nat.mul_le_mul_right _ (by omega)
  have kept : ¬ now.ms < window.timestamp := by omega
  have after : start.ms - len * cnt + frameNumber (start.ms - len * cnt) len now * len < now.ms := by
    omega
  have before : now.ms <
      start.ms - len * cnt + (frameNumber (start.ms - len * cnt) len now + 1) * len := by omega
  obtain ⟨on, covers⟩ := tracks.on.rewind tracks.covers noStats ahead small after before
  have newest : frameNumber (start.ms - len * cnt) len now + 1 - cnt ≤
      frameNumber (start.ms - len * cnt) len now := by omega
  have place := on.correspondingFrame newest (by omega)
  simp only [Window.step, handleWindow, if_neg kept, Window.store, place]
  constructor
  case on =>
    rw [content_packet, historyStart_packet]
    exact on.change direction length (by omega) (by omega)
  case covers =>
    rw [content_packet, beforeRequest_packet, historyStart_packet]
    exact covers.change direction length _ (by omega) _

/-- Every regular run keeps it there. -/
theorem Window.Tracks.run (lenPositive : 0 < len) (cntTwo : 2 ≤ cnt)
    (short : len * cnt < 2 ^ 62) (events : List Event) (regular : Regular start len cnt events) :
    (events.foldl Window.step (initWindow len cnt start lenPositive cntTwo short)).Tracks
      start len cnt events := by
  induction events using List.reverseRecOn with
  | nil => exact initWindow_tracks lenPositive cntTwo short regular.late
  | append_singleton events event hypothesis =>
    have tracks := hypothesis regular.front
    rw [foldl_append, foldl_cons, foldl_nil]
    cases event with
    | request now data => exact tracks.request data
    | packet now direction length => exact tracks.packet direction length regular

/-- No packet is ahead of the history. -/
theorem Regular.placed (positive : 0 < len) (regular : Regular start len cnt events) {now : Moment}
    {direction : Direction} {length : Nat} (member : .packet now direction length ∈ events) :
    frameNumber (start.ms - len * cnt) len now <
      historyStart (start.ms - len * cnt) len cnt events + cnt := by
  induction events using List.reverseRecOn with
  | nil => cases member
  | append_singleton events event hypothesis =>
    obtain ⟨started, later⟩ := regular.last
    cases event with
    | request latest data =>
      rw [historyStart_request]
      exact hypothesis regular.front (by simpa using member)
    | packet latest own size =>
      have behind := cnt_le_frameNumber positive regular.late started
      have order : frameNumber (start.ms - len * cnt) len now ≤
          frameNumber (start.ms - len * cnt) len latest := by
        apply Nat.div_le_div_right
        apply Nat.sub_le_sub_right
        rcases mem_append.mp member with before | here
        · exact later _ before
        · cases mem_singleton.mp here
          exact Nat.le_refl _
      rw [historyStart_packet]
      change cnt ≤ frameNumber _ _ latest at behind
      omega

/-- The frames of the history hold the bytes of their packets.
A report has the maxima over all frames that were in the history at the previous report or later. -/
structure Follows (start : Moment) (events : List Event) (plugin : Plugin) (window : Window) :
    Prop where
  placed : ∀ now direction length, .packet now direction length ∈ events →
    frameNumber (start.ms - window.len * window.cnt) window.len now <
      historyStart (start.ms - window.len * window.cnt) window.len window.cnt events + window.cnt
  held : ∀ place < window.cnt,
    window.frames[(window.currentFrame + place) % window.cnt]? =
      some (content (start.ms - window.len * window.cnt) window.len events
        (historyStart (start.ms - window.len * window.cnt) window.len window.cnt events + place))
  reported : ∃ inMax outMax, (window.len * 1000, inMax, outMax) ∈ plugin.report.windows ∧
    IsGreatest {bytes | ∃ number,
      historyStart (start.ms - window.len * window.cnt) window.len window.cnt
        (beforeRequest events) ≤ number ∧
      amount (start.ms - window.len * window.cnt) window.len events .incoming number = bytes} inMax ∧
    IsGreatest {bytes | ∃ number,
      historyStart (start.ms - window.len * window.cnt) window.len window.cnt
        (beforeRequest events) ≤ number ∧
      amount (start.ms - window.len * window.cnt) window.len events .outgoing number = bytes} outMax

theorem Window.Tracks.follows (tracks : window.Tracks start window.len window.cnt events)
    (regular : Regular start window.len window.cnt events) {plugin : Plugin}
    (member : window ∈ plugin.windows) : Follows start events plugin window where
  placed now direction length inside := regular.placed window.lenPositive inside
  held place inside := by
    rw [tracks.on.current, Nat.mod_add_mod]
    have held := tracks.on.holds _ (Nat.le_add_right _ place)
      (by rw [tracks.on.size]; exact Nat.add_lt_add_left inside _)
    rw [tracks.on.size] at held
    exact held
  reported := by
    obtain ⟨on, covers⟩ := tracks.on.withHistory tracks.covers
    have entry : (window.withHistory.len * 1000, window.withHistory.inMax,
        window.withHistory.outMax) ∈ plugin.report.windows :=
      List.mem_map_of_mem (List.mem_map_of_mem member)
    rw [on.lenEq] at entry
    refine ⟨_, _, entry, ?_, ?_⟩
    · apply covers.inPeak.isGreatest
      intro number behind
      rw [on.fresh number behind]
      rfl
    · apply covers.outPeak.isGreatest
      intro number behind
      rw [on.fresh number behind]
      rfl

theorem init_window {first : Window} (member : first ∈ (Plugin.init start).windows) :
    ∃ len cnt lenPositive cntTwo short,
      first = initWindow len cnt start lenPositive cntTwo short := by
  simp only [Plugin.init, mem_cons, not_mem_nil, or_false] at member
  rcases member with same | same | same | same | same <;> exact ⟨_, _, _, _, _, same⟩

theorem rewind_shape (now : Moment) (window : Window) (stats : Stats) :
    (rewind now window stats).1.len = window.len ∧ (rewind now window stats).1.cnt = window.cnt := by
  induction window, stats using rewind.induct now with
  | case1 window stats before hypothesis =>
    rw [rewind, dif_pos before]
    exact hypothesis
  | case2 window stats done =>
    rw [rewind, dif_neg done]
    exact ⟨rfl, rfl⟩

theorem withHistory_shape (window : Window) :
    window.withHistory.len = window.len ∧ window.withHistory.cnt = window.cnt := by
  have folded (frames : List Nat) (current : Window) :
      (frames.foldl (fun current frame => current.raise
        (window.frames.getD ((window.currentFrame + frame) % window.cnt) .empty)) current).len =
          current.len ∧
      (frames.foldl (fun current frame => current.raise
        (window.frames.getD ((window.currentFrame + frame) % window.cnt) .empty)) current).cnt =
          current.cnt := by
    induction frames generalizing current with
    | nil => exact ⟨rfl, rfl⟩
    | cons frame frames hypothesis => exact hypothesis _
  exact folded _ _

/-- No event changes the shape of a window. -/
theorem step_shape (window : Window) (event : Event) :
    (window.step event).len = window.len ∧ (window.step event).cnt = window.cnt := by
  cases event with
  | request now data =>
    simp only [Window.step, Window.reset]
    exact withHistory_shape window
  | packet now direction length =>
    simp only [Window.step, handleWindow, Window.store, Window.change_len, Window.change_cnt]
    rw [(rewind_shape now _ noStats).1, (rewind_shape now _ noStats).2]
    by_cases older : now.ms < window.timestamp
    · simp only [if_pos older, Window.drop, and_self]
    · simp only [if_neg older, and_self]

theorem foldl_shape (window : Window) (events : List Event) :
    (events.foldl Window.step window).len = window.len ∧
      (events.foldl Window.step window).cnt = window.cnt := by
  induction events generalizing window with
  | nil => exact ⟨rfl, rfl⟩
  | cons event events hypothesis =>
    rw [foldl_cons, (hypothesis _).1, (hypothesis _).2]
    exact step_shape window event

/-- A run over valid requests returns. -/
theorem run_returns (plugin : Plugin) (valid : ∀ now data, .request now data ∈ events → data.length = 8) :
    ∃ final, plugin.run events = some final := by
  induction events generalizing plugin with
  | nil => exact ⟨plugin, rfl⟩
  | cons event events hypothesis =>
    obtain ⟨middle, stepped⟩ : ∃ middle, plugin.step event = some middle := by
      cases event with
      | packet now direction length => exact ⟨_, rfl⟩
      | request now data =>
        rw [Plugin.step, communicate, if_pos (valid now data mem_cons_self)]
        exact ⟨_, rfl⟩
    obtain ⟨final, ran⟩ := hypothesis middle fun now data member =>
      valid now data (mem_cons_of_mem _ member)
    refine ⟨final, ?_⟩
    rw [Plugin.run, foldlM_cons, stepped]
    exact ran

/-- In every run each window follows its regular packets, and a request sends the report. -/
theorem run_follows {plugin : Plugin} (ran : (Plugin.init start).run events = some plugin) :
    (∀ window ∈ plugin.windows, Regular start window.len window.cnt events →
      Follows start events plugin window) ∧
    ∀ data next, communicate plugin data = some next →
      next.sent = plugin.sent ++ [plugin.report] := by
  constructor
  · intro window member regular
    have inside := member
    rw [run_windows ran] at inside
    obtain ⟨first, origin, rfl⟩ := List.mem_map.mp inside
    obtain ⟨len, cnt, lenPositive, cntTwo, short, rfl⟩ := init_window origin
    obtain ⟨sameLen, sameCnt⟩ :=
      foldl_shape (initWindow len cnt start lenPositive cntTwo short) events
    have tracks := Window.Tracks.run lenPositive cntTwo short events
      (by rw [sameLen, sameCnt] at regular; exact regular)
    apply Window.Tracks.follows _ regular member
    rw [sameLen, sameCnt]
    exact tracks
  · intro data next communicated
    simp only [communicate] at communicated
    split at communicated
    · cases communicated
      rfl
    · cases communicated

end Runs

section Examples

def morning : Moment := ⟨20000, by norm_num⟩

def soon : Moment := ⟨20100, by norm_num⟩

@[simp] theorem soon_ms : soon.ms = 20100 := rfl

def download : Event := .packet soon .incoming 100

def query : Event := .request ⟨20600, by norm_num⟩ [0, 0, 0, 0, 0, 0, 0, 0]

def upload : Event := .packet ⟨20700, by norm_num⟩ .outgoing 300

def evening : Event := .packet ⟨33300, by norm_num⟩ .incoming 1400

/-- The report is asked for while the first frame of the day is open. -/
def day : List Event := [download, query, upload, evening]

theorem query_regular : Regular morning 500 12 [download, query] where
  late := by norm_num [morning]
  ordered := by simp [morning, download, query, Event.now]
  offBoundary now direction length member := by
    rcases mem_cons.mp member with same | other
    · cases same
      norm_num [morning]
    · cases mem_singleton.mp other

theorem day_regular {len cnt : Nat} (late : len * cnt ≤ 20000)
    (off : ∀ passed ∈ [100, 700, 13300], ¬ len ∣ passed) : Regular morning len cnt day where
  late := late
  ordered := by simp [morning, day, download, query, upload, evening, Event.now]
  offBoundary now direction length member := by
    simp only [day, download, query, upload, evening, mem_cons, not_mem_nil, or_false,
      Event.packet.injEq, reduceCtorEq, false_or] at member
    obtain ⟨rfl, -, -⟩ | ⟨rfl, -, -⟩ | ⟨rfl, -, -⟩ := member
    · exact off 100 (by simp)
    · exact off 700 (by simp)
    · exact off 13300 (by simp)

theorem day_returns : ∃ plugin, (Plugin.init morning).run day = some plugin := by
  apply run_returns
  intro now data member
  simp only [day, download, query, upload, evening, mem_cons, not_mem_nil, or_false,
    Event.request.injEq, reduceCtorEq, false_or] at member
  rw [member.2]
  rfl

/-- A day with packets in both directions and a report keeps to the conditions of every window. -/
theorem run_follows_day : ∃ plugin, (Plugin.init morning).run day = some plugin ∧
    ∀ window ∈ plugin.windows, Follows morning day plugin window := by
  obtain ⟨plugin, ran⟩ := day_returns
  refine ⟨plugin, ran, fun window member => (run_follows ran).1 window member ?_⟩
  have inside := member
  rw [run_windows ran] at inside
  obtain ⟨first, origin, rfl⟩ := List.mem_map.mp inside
  obtain ⟨sameLen, sameCnt⟩ := foldl_shape first day
  rw [sameLen, sameCnt]
  simp only [Plugin.init, mem_cons, not_mem_nil, or_false] at origin
  apply day_regular
  · rcases origin with rfl | rfl | rfl | rfl | rfl <;> simp [initWindow]
  · rcases origin with rfl | rfl | rfl | rfl | rfl <;> simp [initWindow]

theorem amount_download (number : Nat) : amount 14000 500 [download, query] .incoming number =
    if 12 = number then 100 else 0 := by
  simp [amount, counted, download, query, frameNumber]

/-- The second report repeats a maximum from a frame that ended before the first report. -/
theorem query_repeats : ∃ plugin, (Plugin.init morning).run [download, query] = some plugin ∧
    (∃ outMax, (500000, 100, outMax) ∈ plugin.report.windows) ∧
    ∀ number, query.now.ms < 14000 + (number + 1) * 500 →
      amount 14000 500 [download, query] .incoming number = 0 := by
  obtain ⟨plugin, ran⟩ : ∃ plugin, (Plugin.init morning).run [download, query] = some plugin :=
    run_returns _ (by simp [download, query])
  refine ⟨plugin, ran, ?_, ?_⟩
  · let first := initWindow 500 12 morning (by decide) (by decide) (by decide)
    have member : [download, query].foldl Window.step first ∈ plugin.windows := by
      rw [run_windows ran]
      exact List.mem_map_of_mem mem_cons_self
    have tracks := Window.Tracks.run (by decide) (by decide) (by decide) _ query_regular
    obtain ⟨on, covers⟩ := tracks.on.withHistory tracks.covers
    have entry : (([download, query].foldl Window.step first).withHistory.len * 1000,
        ([download, query].foldl Window.step first).withHistory.inMax,
        ([download, query].foldl Window.step first).withHistory.outMax) ∈ plugin.report.windows :=
      List.mem_map_of_mem (List.mem_map_of_mem member)
    have greatest := covers.inPeak.isGreatest fun number behind => by
      rw [on.fresh number behind]
      rfl
    have hundred : IsGreatest {bytes | ∃ number,
        historyStart 14000 500 12 (beforeRequest [download, query]) ≤ number ∧
        amount 14000 500 [download, query] .incoming number = bytes} 100 := by
      constructor
      · refine ⟨12, ?_, by rw [amount_download, if_pos rfl]⟩
        simp [beforeRequest, historyStart, newest, download, query, Event.isRequest, frameNumber,
          List.rdropWhile]
      · rintro bytes ⟨number, -, rfl⟩
        rw [amount_download]
        split <;> omega
    have same := greatest.unique hundred
    rw [on.lenEq, same] at entry
    exact ⟨_, entry⟩
  · intro number late
    rw [amount_download, if_neg]
    rintro rfl
    change 20600 < 14000 + (12 + 1) * 500 at late
    omega

end Examples

end Ucollect.Bandwidth
