import Ucollect.Library.Tables
import Ucollect.Proof.Bandwidth.Frames

namespace Ucollect.Bandwidth
open Library List Option

section Places

/-- This is the place of the first upper neighbour whose range contains the rate. -/
def placeOf (rate : Nat) : List Nat → Option Nat
  | lower :: upper :: rest =>
    if lower ≤ rate ∧ rate ≤ upper then some 1
    else (placeOf rate (upper :: rest)).map (· + 1)
  | _ => none

def Bucket.add (bucket : Bucket) (seconds bytes : Nat) : Bucket :=
  ⟨bucket.key, bucket.time + seconds, bucket.bytes + bytes⟩

/-- The loop adds the frame to the bucket at the place of its rate. -/
theorem addToBuckets_eq (rate seconds bytes : Nat) (buckets : List Bucket) :
    addToBuckets rate seconds bytes buckets =
      match placeOf rate (buckets.map Bucket.key) with
      | none => buckets
      | some place => buckets.modify place fun bucket => bucket.add seconds bytes := by
  induction buckets with
  | nil => rfl
  | cons previous rest hypothesis =>
    cases rest with
    | nil => rfl
    | cons bucket rest =>
      rw [addToBuckets, map_cons, map_cons, placeOf]
      by_cases inside : previous.key ≤ rate ∧ rate ≤ bucket.key
      · rw [if_pos inside, if_pos inside]
        rfl
      · rw [if_neg inside, if_neg inside, hypothesis, map_cons]
        cases placeOf rate (bucket.key :: rest.map Bucket.key) <;> rfl

end Places

section ClosedFrames

/-- A packet drops the history when the clock went back. -/
def Window.turned (window : Window) (now : Moment) : Window :=
  if now.ms < window.timestamp then window.drop now else window

theorem Window.turned_len (window : Window) (now : Moment) :
    (window.turned now).len = window.len := by
  rw [Window.turned]
  split
  · rw [Window.drop]
  · rfl

/-- These frames leave the history of the window up to the time. -/
def Window.closing (now : Moment) (window : Window) : List Frame :=
  if _before : window.finish < now.ms then window.oldest :: closing now window.rotate else []
termination_by now.ms - window.finish
decreasing_by
  have moved := window.rotate_finish _before
  have positive := window.lenPositive
  omega

/-- These frames of the window are closed since the last request of the events. -/
def Window.closed (window : Window) : List Event → List Frame → List Frame
  | [], frames => frames
  | .packet now direction length :: events, frames =>
    Window.closed (window.step (.packet now direction length)) events
      (frames ++ (window.turned now).closing now)
  | .request now data :: events, _ => Window.closed (window.step (.request now data)) events []

end ClosedFrames

section Ledger

/-- The statistics use windows of this many seconds. -/
def seconds : Nat := statsFromWindow / sec

/-- These are the amounts that belong to the bucket at the place. -/
def placed (keys amounts : List Nat) (place : Nat) : List Nat :=
  amounts.filter fun bytes => placeOf (bytes / seconds) keys = some place

/-- The buckets follow from the amounts of the closed frames. -/
def ledger (keys amounts : List Nat) : List Bucket :=
  keys.mapIdx fun place key =>
    ⟨key, ((placed keys amounts place).map fun _ => seconds).sum, (placed keys amounts place).sum⟩

theorem ledger_getElem? (keys amounts : List Nat) (place : Nat) :
    (ledger keys amounts)[place]? = keys[place]?.map fun key =>
      ⟨key, ((placed keys amounts place).map fun _ => seconds).sum,
        (placed keys amounts place).sum⟩ := List.getElem?_mapIdx

theorem ledger_keys (keys amounts : List Nat) : (ledger keys amounts).map Bucket.key = keys := by
  apply ext_getElem?
  intro place
  rw [List.getElem?_map, ledger_getElem?, Option.map_map]
  exact Option.map_id'

theorem ledger_add (keys amounts : List Nat) (bytes : Nat) :
    addToBuckets (bytes / seconds) seconds bytes (ledger keys amounts) =
      ledger keys (amounts ++ [bytes]) := by
  rw [addToBuckets_eq, ledger_keys]
  apply ext_getElem?
  intro place
  cases found : placeOf (bytes / seconds) keys with
  | none => simp [ledger_getElem?, placed, found]
  | some own =>
    simp only [List.getElem?_modify, ledger_getElem?, placed, filter_append, filter_singleton,
      found]
    by_cases same : own = place
    · subst same
      cases keys[own]? with
      | none => rfl
      | some key => simp [Bucket.add]
    · simp [same]

theorem ledger_reset (keys amounts : List Nat) :
    (ledger keys amounts).map Bucket.reset = ledger keys [] := by
  apply ext_getElem?
  intro place
  rw [List.getElem?_map, ledger_getElem?, ledger_getElem?, Option.map_map]
  rfl

def bucketKeys : List Nat := bucketSpeeds.map kbitsToBytes

/-- The statistics follow from the closed frames. -/
def Stats.Booked (stats : Stats) (closed : List Frame) : Prop :=
  stats.inBuckets = ledger bucketKeys (closed.map Frame.inSum) ∧
    stats.outBuckets = ledger bucketKeys (closed.map Frame.outSum)

variable {closed : List Frame} {stats : Stats}

theorem updateBuckets_booked (booked : stats.Booked closed) (frame : Frame) :
    (updateBuckets stats frame statsFromWindow).Booked (closed ++ [frame]) := by
  obtain ⟨incoming, outgoing⟩ := booked
  constructor
  · simp only [updateBuckets, incoming, map_append, map_cons, map_nil]
    exact ledger_add _ _ _
  · simp only [updateBuckets, outgoing, map_append, map_cons, map_nil]
    exact ledger_add _ _ _

/-- The window of the statistics books its closing frames, and the other windows book nothing. -/
theorem rewind_booked (now : Moment) (window : Window) (booked : stats.Booked closed) :
    (rewind now window stats).2.Booked
      (closed ++ if window.len = statsFromWindow then window.closing now else []) := by
  induction window, stats using rewind.induct now generalizing closed with
  | case1 window stats before hypothesis =>
    rw [rewind, dif_pos before, Window.closing, dif_pos before]
    by_cases same : window.len = statsFromWindow
    · rw [if_pos same, if_pos same]
      rw [dif_pos same] at hypothesis
      have rest := hypothesis (same ▸ updateBuckets_booked booked window.oldest)
      rw [if_pos (show window.rotate.len = statsFromWindow from same), append_assoc,
        singleton_append] at rest
      exact rest
    · rw [if_neg same, if_neg same]
      rw [dif_neg same] at hypothesis
      have rest := hypothesis booked
      rw [if_neg (show ¬ window.rotate.len = statsFromWindow from same)] at rest
      exact rest
  | case2 window stats done =>
    rw [rewind, dif_neg done, Window.closing, dif_neg done, ite_self, append_nil]
    exact booked

theorem handleWindow_booked (now : Moment) (direction : Direction) (length : Nat) (window : Window)
    (booked : stats.Booked closed) :
    (handleWindow now direction length window stats).2.Booked (closed ++
      if window.len = statsFromWindow then (window.turned now).closing now else []) := by
  have rewound : (handleWindow now direction length window stats).2 =
      (rewind now (window.turned now) stats).2 := by
    rw [handleWindow, Window.turned]
  rw [rewound, ← window.turned_len now]
  exact rewind_booked now _ booked

/-- These are the windows of the statistics. -/
def statsWindows (windows : List Window) : List Window :=
  windows.filter fun window => window.len = statsFromWindow

theorem handleWindows_booked (now : Moment) (direction : Direction) (length : Nat)
    (windows : List Window) (booked : stats.Booked closed) :
    (handleWindows now direction length windows stats).2.Booked (closed ++
      (statsWindows windows).flatMap fun window => (window.turned now).closing now) := by
  induction windows generalizing stats closed with
  | nil => simpa [statsWindows, handleWindows] using booked
  | cons window windows hypothesis =>
    rw [handleWindows]
    have rest := hypothesis (handleWindow_booked now direction length window booked)
    rw [append_assoc] at rest
    rw [statsWindows, filter_cons]
    by_cases same : window.len = statsFromWindow
    · rw [if_pos same] at rest
      rw [if_pos (decide_eq_true same), flatMap_cons]
      exact rest
    · rw [if_neg same, nil_append] at rest
      rw [if_neg (by simpa using same)]
      exact rest

/-- One window is the window of the statistics, and its closed frames are booked. -/
structure Plugin.Books (plugin : Plugin) (window : Window) (closed : List Frame) : Prop where
  only : statsWindows plugin.windows = [window]
  booked : plugin.stats.Booked closed

theorem statsWindows_step (windows : List Window) (event : Event) :
    statsWindows (windows.map fun window => window.step event) =
      (statsWindows windows).map fun window => window.step event := by
  rw [statsWindows, List.filter_map, statsWindows]
  congr 2
  funext window
  rw [Function.comp_apply, (step_shape window event).1]

theorem Plugin.Books.run {plugin final : Plugin} {window : Window} {events : List Event}
    (books : plugin.Books window closed) (ran : plugin.run events = some final) :
    final.Books (events.foldl Window.step window) (window.closed events closed) := by
  induction events generalizing plugin window closed with
  | nil =>
    cases ran
    exact books
  | cons event events hypothesis =>
    rw [Plugin.run, foldlM_cons] at ran
    obtain ⟨middle, stepped, rest⟩ := bind_eq_some_iff.mp ran
    have alone : plugin.run [event] = some middle := by
      rw [Plugin.run, foldlM_cons, stepped]
      rfl
    have only : statsWindows middle.windows = [window.step event] := by
      rw [run_windows alone]
      change statsWindows (plugin.windows.map fun window => window.step event) = _
      rw [statsWindows_step, books.only]
      rfl
    cases event with
    | packet now direction length =>
      refine hypothesis ⟨only, ?_⟩ rest
      cases stepped
      have booked := handleWindows_booked now direction length plugin.windows books.booked
      rw [books.only, flatMap_singleton] at booked
      exact booked
    | request now data =>
      refine hypothesis ⟨only, ?_⟩ rest
      simp only [Plugin.step, communicate] at stepped
      split at stepped
      · cases stepped
        simp only [Stats.Booked, books.booked.1, books.booked.2, ledger_reset, map_nil, and_self]
      · cases stepped

end Ledger

section Conservation

/-- Each amount belongs to one bucket whose range contains its rate, and the buckets sum up their
amounts. -/
structure Distributed (buckets : List Bucket) (amounts : List Nat) (place : Nat → Nat) : Prop where
  inRange : ∀ bytes ∈ amounts, ∃ lower upper, 1 ≤ place bytes ∧
    buckets[place bytes - 1]? = some lower ∧ buckets[place bytes]? = some upper ∧
    lower.key ≤ bytes / seconds ∧ bytes / seconds ≤ upper.key
  shares : ∀ index bucket, buckets[index]? = some bucket →
    bucket.time = ((amounts.filter fun bytes => place bytes = index).map fun _ => seconds).sum ∧
      bucket.bytes = (amounts.filter fun bytes => place bytes = index).sum
  totals : (buckets.map Bucket.time).sum = (amounts.map fun _ => seconds).sum ∧
    (buckets.map Bucket.bytes).sum = amounts.sum

/-- The closed frames are in the buckets, and a bucket with data is in the next report. -/
structure Conserves (plugin : Plugin) (closed : List Frame) : Prop where
  incoming : ∃ place, Distributed plugin.stats.inBuckets (closed.map Frame.inSum) place
  outgoing : ∃ place, Distributed plugin.stats.outBuckets (closed.map Frame.outSum) place
  transmitted : ∀ (index : Nat) (inBucket outBucket : Bucket),
    plugin.stats.inBuckets[index]? = some inBucket →
    plugin.stats.outBuckets[index]? = some outBucket →
    inBucket.time ≠ 0 ∨ inBucket.bytes ≠ 0 ∨ outBucket.time ≠ 0 ∨ outBucket.bytes ≠ 0 →
    (bytesToKbits inBucket.key, (inBucket.time, inBucket.bytes),
      (outBucket.time, outBucket.bytes)) ∈ plugin.report.buckets

/-- The last bucket ends with this rate. -/
def topRate : Nat := kbitsToBytes 1000000

theorem bucketKeys_le : ∀ key ∈ bucketKeys, key ≤ topRate := by
  decide

variable {amounts : List Nat}

theorem Distributed.low {place : Nat → Nat}
    (distributed : Distributed (ledger bucketKeys amounts) amounts place) :
    ∀ bytes ∈ amounts, bytes / seconds ≤ topRate := by
  intro bytes member
  obtain ⟨-, upper, -, -, found, -, below⟩ := distributed.inRange bytes member
  rw [ledger_getElem?] at found
  obtain ⟨key, stored, rfl⟩ := map_eq_some_iff.mp found
  exact below.trans (bucketKeys_le key (mem_of_getElem? stored))

variable {index : Nat}

theorem reportBuckets_mem {inBuckets outBuckets : List Bucket} {inBucket outBucket : Bucket}
    (incoming : inBuckets[index]? = some inBucket) (outgoing : outBuckets[index]? = some outBucket)
    (used : inBucket.time ≠ 0 ∨ outBucket.time ≠ 0) :
    (bytesToKbits inBucket.key, (inBucket.time, inBucket.bytes),
      (outBucket.time, outBucket.bytes)) ∈ reportBuckets inBuckets outBuckets := by
  induction inBuckets generalizing outBuckets index with
  | nil => cases incoming
  | cons first ins hypothesis =>
    cases outBuckets with
    | nil => cases outgoing
    | cons second outs =>
      rw [reportBuckets]
      cases index with
      | zero =>
        cases incoming
        cases outgoing
        rw [if_pos used]
        exact mem_cons_self
      | succ index =>
        have later : _ ∈ reportBuckets ins outs := hypothesis incoming outgoing
        split
        · exact mem_cons_of_mem _ later
        · exact later

/-- A bucket with bytes also has time. -/
theorem ledger_time {keys : List Nat} {bucket : Bucket}
    (found : (ledger keys amounts)[index]? = some bucket) (bytes : bucket.bytes ≠ 0) :
    bucket.time ≠ 0 := by
  rw [ledger_getElem?] at found
  obtain ⟨key, -, rfl⟩ := map_eq_some_iff.mp found
  change (placed keys amounts index).sum ≠ 0 at bytes
  change ((placed keys amounts index).map fun _ => seconds).sum ≠ 0
  cases share : placed keys amounts index with
  | nil => simp [share] at bytes
  | cons first rest => simp [seconds, statsFromWindow, sec]

variable {plugin : Plugin} {closed : List Frame}

theorem Stats.Booked.transmitted (booked : plugin.stats.Booked closed) {inBucket outBucket : Bucket}
    (incoming : plugin.stats.inBuckets[index]? = some inBucket)
    (outgoing : plugin.stats.outBuckets[index]? = some outBucket)
    (data : inBucket.time ≠ 0 ∨ inBucket.bytes ≠ 0 ∨ outBucket.time ≠ 0 ∨ outBucket.bytes ≠ 0) :
    (bytesToKbits inBucket.key, (inBucket.time, inBucket.bytes),
      (outBucket.time, outBucket.bytes)) ∈ plugin.report.buckets := by
  apply reportBuckets_mem incoming outgoing
  rw [booked.1] at incoming
  rw [booked.2] at outgoing
  rcases data with time | bytes | time | bytes
  · exact .inl time
  · exact .inl (ledger_time incoming bytes)
  · exact .inr time
  · exact .inr (ledger_time outgoing bytes)

end Conservation

section Closing

variable {window : Window} {origin len cnt base : Nat} {tape : Nat → Frame} {now : Moment}

theorem Window.On.goes (on : window.On origin len cnt tape base) {number : Nat}
    (first : base ≤ number) (after : origin + (number + cnt) * len < now.ms) :
    window.finish < now.ms ∧ origin + (base + 1) * len < 2 ^ 64 := by
  have bounded := now.bounded
  have two := window.cntTwo
  have cntEq := on.cntEq
  have least : (base + cnt) * len ≤ (number + cnt) * len := Nat.mul_le_mul_right _ (by omega)
  have next : (base + 1) * len ≤ (base + cnt) * len := Nat.mul_le_mul_right _ (by omega)
  have finish := on.finish (by omega)
  omega

/-- The window of the statistics closes the frames that leave its history. -/
theorem Window.On.closes (on : window.On origin len cnt tape base) {number : Nat}
    (first : base ≤ number) (after : origin + (number + cnt) * len < now.ms) :
    tape number ∈ window.closing now := by
  obtain ⟨rest, total⟩ : ∃ rest, base + rest = number := ⟨number - base, by omega⟩
  induction rest generalizing window base with
  | zero =>
    obtain ⟨go, -⟩ := on.goes first after
    rw [Window.closing, dif_pos go, show number = base by omega, ← on.oldest]
    exact mem_cons_self
  | succ rest hypothesis =>
    obtain ⟨go, near⟩ := on.goes first after
    rw [Window.closing, dif_pos go]
    exact mem_cons_of_mem _ (hypothesis (on.rotate near) (by omega) (by omega))

/-- These packets come at once. -/
def burst (count : Nat) : List Event :=
  List.replicate count (.packet soon .incoming 1500)

def later : Moment := ⟨26100, by norm_num⟩

end Closing

end Ucollect.Bandwidth
