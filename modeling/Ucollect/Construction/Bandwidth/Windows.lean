import Ucollect.Library.Bytes

/-
This file models plugins/bandwidth/bandwidth.c.
-/

namespace Ucollect.Bandwidth
open Library

/-- The kernel counts its nanoseconds in 63 bits, and the loop keeps milliseconds. -/
structure Moment where
  ms : Nat
  bounded : ms < 2 ^ 63

/-- A sum of bytes stays below its 64 bits. -/
structure Frame where
  inSum : Nat
  outSum : Nat
  deriving DecidableEq, Repr

def Frame.empty : Frame := ⟨0, 0⟩

def clockModulus : Nat := 2 ^ 64

/-- This is `struct window`.
A time is a number of 64 bits, and the place of the oldest frame is `currentFrame`. -/
structure Window where
  len : Nat
  cnt : Nat
  timestamp : Nat
  currentFrame : Nat
  inMax : Nat
  outMax : Nat
  frames : List Frame
  lenPositive : 0 < len
  cntTwo : 2 ≤ cnt
  short : len * cnt < 2 ^ 62
  filled : frames.length = cnt

structure Bucket where
  key : Nat
  time : Nat
  bytes : Nat
  deriving DecidableEq, Repr

structure Stats where
  inBuckets : List Bucket
  outBuckets : List Bucket

def sec : Nat := 1000

def statsFromWindow : Nat := 2000

section Statistics

/-- The loop compares a rate with the keys of two neighbours and stops at the first match. -/
def addToBuckets (rate seconds bytes : Nat) : List Bucket → List Bucket
  | previous :: bucket :: rest =>
    if previous.key ≤ rate ∧ rate ≤ bucket.key then
      previous :: ⟨bucket.key, bucket.time + seconds, bucket.bytes + bytes⟩ :: rest
    else previous :: addToBuckets rate seconds bytes (bucket :: rest)
  | buckets => buckets

/-- A closed frame is added to the buckets of its two speeds. -/
def updateBuckets (stats : Stats) (frame : Frame) (winlen : Nat) : Stats :=
  let seconds := winlen / sec
  { inBuckets := addToBuckets (frame.inSum / seconds) seconds frame.inSum stats.inBuckets
    outBuckets := addToBuckets (frame.outSum / seconds) seconds frame.outSum stats.outBuckets }

end Statistics

section PacketHandle

/-- The subtraction wraps around. -/
def delayedTimestamp (timestamp windowLen windowsCnt : Nat) : Nat :=
  (timestamp + clockModulus - windowLen * windowsCnt) % clockModulus

def Window.oldest (window : Window) : Frame := window.frames.getD window.currentFrame .empty

/-- The history ends here. -/
def Window.finish (window : Window) : Nat :=
  (window.timestamp + window.len * window.cnt) % clockModulus

/-- The clock went back, so the history is dropped. -/
def Window.drop (window : Window) (now : Moment) : Window :=
  { window with
    timestamp := delayedTimestamp now.ms window.len window.cnt
    frames := List.replicate window.cnt .empty
    currentFrame := 0
    filled := List.length_replicate }

/-- A frame raises the maxima. -/
def Window.raise (window : Window) (frame : Frame) : Window :=
  { window with
    inMax := if window.inMax < frame.inSum then frame.inSum else window.inMax
    outMax := if window.outMax < frame.outSum then frame.outSum else window.outMax }

/-- This is one turn of the loop that rewinds the tape. -/
def Window.rotate (window : Window) : Window :=
  { window.raise window.oldest with
    frames := window.frames.set window.currentFrame .empty
    timestamp := (window.timestamp + window.len) % clockModulus
    currentFrame := (window.currentFrame + 1) % window.cnt
    filled := List.length_set.trans window.filled }

theorem Window.rotate_finish (window : Window) {now : Moment} (before : window.finish < now.ms) :
    window.rotate.finish = window.finish + window.len := by
  have bounded := now.bounded
  have short := window.short
  have two := window.cntTwo
  have wider : window.len ≤ window.len * window.cnt := Nat.le_mul_of_pos_right _ (by omega)
  simp only [Window.finish, Window.rotate, Window.raise, clockModulus] at *
  omega

/-- Frames that are over are closed one by one. -/
def rewind (now : Moment) (window : Window) (stats : Stats) : Window × Stats :=
  if _before : window.finish < now.ms then
    rewind now window.rotate
      (if window.len = statsFromWindow then updateBuckets stats window.oldest window.len else stats)
  else (window, stats)
termination_by now.ms - window.finish
decreasing_by
  have moved := window.rotate_finish _before
  have positive := window.lenPositive
  omega

inductive Direction where
  | incoming
  | outgoing
  deriving DecidableEq, Repr

def Frame.add (frame : Frame) (direction : Direction) (length : Nat) : Frame :=
  match direction with
  | .incoming => { frame with inSum := frame.inSum + length }
  | .outgoing => { frame with outSum := frame.outSum + length }

def Window.correspondingFrame (window : Window) (now : Moment) : Nat :=
  (window.currentFrame +
    ((now.ms + clockModulus - window.timestamp) % clockModulus) / window.len) % window.cnt

def Window.change (window : Window) (frame : Nat) (direction : Direction) (length : Nat) : Window :=
  { window with
    frames := window.frames.modify frame fun frame => frame.add direction length
    filled := (List.length_modify ..).trans window.filled }

@[simp] theorem Window.change_len (window : Window) (frame : Nat) (direction : Direction)
    (length : Nat) : (window.change frame direction length).len = window.len := by
  rw [Window.change]

@[simp] theorem Window.change_cnt (window : Window) (frame : Nat) (direction : Direction)
    (length : Nat) : (window.change frame direction length).cnt = window.cnt := by
  rw [Window.change]

def Window.store (window : Window) (now : Moment) (direction : Direction) (length : Nat) : Window :=
  window.change (window.correspondingFrame now) direction length

/-- A packet is stored after the frames before it are closed. -/
def handleWindow (now : Moment) (direction : Direction) (length : Nat) (window : Window)
    (stats : Stats) : Window × Stats :=
  let window := if now.ms < window.timestamp then window.drop now else window
  let rewound := rewind now window stats
  (rewound.1.store now direction length, rewound.2)

def handleWindows (now : Moment) (direction : Direction) (length : Nat) :
    List Window → Stats → List Window × Stats
  | [], stats => ([], stats)
  | window :: windows, stats =>
    let handled := handleWindow now direction length window stats
    let rest := handleWindows now direction length windows handled.2
    (handled.1 :: rest.1, rest.2)

end PacketHandle

section Reports

/-- The windows carry their length, `in_max` and `out_max`.
The buckets carry their key with the time and the bytes of each direction. -/
structure Report where
  timestamp : Nat
  windows : List (Nat × Nat × Nat)
  buckets : List (Nat × (Nat × Nat) × (Nat × Nat))
  deriving DecidableEq, Repr

structure Plugin where
  windows : List Window
  stats : Stats
  timestamp : Nat
  sent : List Report

/-- The maximum also covers the buffered history. -/
def Window.withHistory (window : Window) : Window :=
  (List.range window.cnt).foldl (fun current frame =>
    current.raise (window.frames.getD ((window.currentFrame + frame) % window.cnt) .empty)) window

/-- The counters of a window start again after a report. -/
def Window.reset (window : Window) : Window := { window with inMax := 0, outMax := 0 }

def bytesToKbits (bytes : Nat) : Nat := bytes * 8 / 1000

def kbitsToBytes (kbits : Nat) : Nat := kbits * 1000 / 8

/-- A bucket without time in both directions stays out of the message. -/
def reportBuckets : List Bucket → List Bucket → List (Nat × (Nat × Nat) × (Nat × Nat))
  | inBucket :: inBuckets, outBucket :: outBuckets =>
    if inBucket.time ≠ 0 ∨ outBucket.time ≠ 0 then
      (bytesToKbits inBucket.key, (inBucket.time, inBucket.bytes),
        (outBucket.time, outBucket.bytes)) :: reportBuckets inBuckets outBuckets
    else reportBuckets inBuckets outBuckets
  | _, _ => []

/-- The length of a window is sent in microseconds. -/
def Plugin.report (plugin : Plugin) : Report where
  timestamp := plugin.timestamp
  windows := (plugin.windows.map Window.withHistory).map fun window =>
    (window.len * 1000, window.inMax, window.outMax)
  buckets := reportBuckets plugin.stats.inBuckets plugin.stats.outBuckets

def Bucket.reset (bucket : Bucket) : Bucket := ⟨bucket.key, 0, 0⟩

/-- A request of another size kills the plugin. -/
def communicate (plugin : Plugin) (data : Bytes) : Option Plugin :=
  if data.length = 8 then
    some
      { windows := (plugin.windows.map Window.withHistory).map Window.reset
        stats :=
          { inBuckets := plugin.stats.inBuckets.map Bucket.reset
            outBuckets := plugin.stats.outBuckets.map Bucket.reset }
        timestamp := bigEndian data
        sent := plugin.sent ++ [plugin.report] }
  else none

end Reports

section Initialization

def initWindow (length count : Nat) (now : Moment) (lenPositive : 0 < length)
    (cntTwo : 2 ≤ count) (short : length * count < 2 ^ 62) : Window where
  len := length
  cnt := count
  timestamp := delayedTimestamp now.ms length count
  currentFrame := 0
  inMax := 0
  outMax := 0
  frames := List.replicate count .empty
  lenPositive
  cntTwo
  short
  filled := List.length_replicate

/-- A loop runs from the first value to the last one. -/
def steps (first last step : Nat) : List Nat :=
  (List.range ((last - first) / step + 1)).map fun turn => first + turn * step

def bucketSpeeds : List Nat :=
  steps 0 999 250 ++ steps 1000 20000 1000 ++ steps 30000 100000 10000 ++
    steps 200000 1000000 100000

def initBucket (kiloBitsPerSecond : Nat) : Bucket := ⟨kbitsToBytes kiloBitsPerSecond, 0, 0⟩

def Plugin.init (now : Moment) : Plugin where
  windows :=
    [initWindow 500 12 now (by decide) (by decide) (by decide),
      initWindow 1000 6 now (by decide) (by decide) (by decide),
      initWindow 2000 3 now (by decide) (by decide) (by decide),
      initWindow 5000 2 now (by decide) (by decide) (by decide),
      initWindow 10000 2 now (by decide) (by decide) (by decide)]
  stats := ⟨bucketSpeeds.map initBucket, bucketSpeeds.map initBucket⟩
  timestamp := 0
  sent := []

end Initialization

section System

/-- The loop knows the time of each event, but only packets look at it. -/
inductive Event where
  | packet (now : Moment) (direction : Direction) (length : Nat)
  | request (now : Moment) (data : Bytes)

def Event.now : Event → Moment
  | .packet now _ _ => now
  | .request now _ => now

def Plugin.step (plugin : Plugin) : Event → Option Plugin
  | .packet now direction length =>
    let handled := handleWindows now direction length plugin.windows plugin.stats
    some { plugin with windows := handled.1, stats := handled.2 }
  | .request _ data => communicate plugin data

/-- The plugin after a list of events. -/
def Plugin.run (plugin : Plugin) (events : List Event) : Option Plugin :=
  events.foldlM Plugin.step plugin

end System

end Ucollect.Bandwidth
