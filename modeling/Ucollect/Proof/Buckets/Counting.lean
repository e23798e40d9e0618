import Ucollect.Construction.Buckets.Client
import Ucollect.Library.Outcomes

/-
Every counted packet is once in the counters of each hash. The counters are inside their array
while the size of the array does not wrap around.
-/

namespace Ucollect.Buckets
open Library Core Finset

variable {config : Config} {criterion : Criterion} {slot number bucket : Nat}

/-- The size of the counters in bytes is a number of the type `size_t`. -/
def Config.Fits (config : Config) : Prop :=
  config.bucketCount * config.hashCount * config.maxTimeslots * 4 < sizeModulus

theorem Config.Fits.countsSize_eq (fits : config.Fits) :
    config.countsSize = config.bucketCount * config.hashCount * config.maxTimeslots := by
  rw [Config.countsSize, Nat.mod_eq_of_lt fits]
  omega

/-- These are the counters of one hash. -/
def Criterion.line (config : Config) (criterion : Criterion) (number : Nat) : Nat :=
  ∑ slot ∈ range config.maxTimeslots, ∑ bucket ∈ range config.bucketCount,
    criterion.counts (config.index slot number bucket)

theorem Criterion.total_eq (criterion : Criterion) (count : Nat) :
    criterion.total count = ∑ index ∈ range count, criterion.counts index := by
  rw [Criterion.total]
  induction count with
  | zero => rfl
  | succ count ih =>
    rw [List.range_succ, List.map_append, List.sum_append, ih, sum_range_succ]
    simp

/-- The counters up to a time slot stand before those of the next one. -/
theorem Config.index_lt (inLine : number < config.hashCount) (inBucket : bucket < config.bucketCount) :
    config.index slot number bucket <
      config.bucketCount * config.hashCount * (slot + 1) := by
  have line : number * config.bucketCount + bucket < config.bucketCount * config.hashCount := by
    calc number * config.bucketCount + bucket
        < number * config.bucketCount + config.bucketCount := by omega
      _ = (number + 1) * config.bucketCount := by ring
      _ ≤ config.hashCount * config.bucketCount := Nat.mul_le_mul_right _ inLine
      _ = config.bucketCount * config.hashCount := Nat.mul_comm _ _
  rw [Config.index, Nat.mul_succ]
  omega

/-- A counter belongs to one time slot, one hash and one bucket. -/
theorem Config.index_inj {otherSlot otherNumber otherBucket : Nat}
    (inLine : number < config.hashCount) (inBucket : bucket < config.bucketCount)
    (otherLine : otherNumber < config.hashCount) (other : otherBucket < config.bucketCount)
    (same : config.index slot number bucket = config.index otherSlot otherNumber otherBucket) :
    slot = otherSlot ∧ number = otherNumber ∧ bucket = otherBucket := by
  have positive : 0 < config.bucketCount := by omega
  have flat : ∀ slot number bucket, config.index slot number bucket =
      config.bucketCount * (config.hashCount * slot + number) + bucket := by
    intro slot number bucket
    rw [Config.index]
    ring
  rw [flat, flat] at same
  have low : bucket = otherBucket := by
    have mod := congrArg (· % config.bucketCount) same
    simpa [Nat.mul_add_mod, Nat.mod_eq_of_lt inBucket, Nat.mod_eq_of_lt other] using mod
  have high : config.hashCount * slot + number = config.hashCount * otherSlot + otherNumber := by
    have quotient := congrArg (· / config.bucketCount) same
    simpa [Nat.mul_add_div positive, Nat.div_eq_of_lt inBucket, Nat.div_eq_of_lt other]
      using quotient
  have middle : number = otherNumber := by
    have mod := congrArg (· % config.hashCount) high
    simpa [Nat.mul_add_mod, Nat.mod_eq_of_lt inLine, Nat.mod_eq_of_lt otherLine] using mod
  have first : slot = otherSlot := by
    have quotient := congrArg (· / config.hashCount) high
    simpa [Nat.mul_add_div (by omega : 0 < config.hashCount), Nat.div_eq_of_lt inLine,
      Nat.div_eq_of_lt otherLine] using quotient
  exact ⟨first, middle, low⟩

/-- The counters of a generation after so many packets and so many hashes of the current one. -/
structure Criterion.Counts (config : Config) (biggest : Nat) (criterion : Criterion)
    (packets hashes : Nat) : Prop where
  line : ∀ number < config.hashCount,
    criterion.line config number = packets + if number < hashes then 1 else 0
  total : ∑ index ∈ range (config.bucketCount * config.hashCount * config.maxTimeslots),
    criterion.counts index = packets * config.hashCount + hashes
  unused : ∀ index, config.bucketCount * config.hashCount * (biggest + 1) ≤ index →
    index < config.bucketCount * config.hashCount * config.maxTimeslots →
    criterion.counts index = 0

/-- A counter is not more than the line it stands in. -/
theorem Criterion.counts_le_line (inSlots : slot < config.maxTimeslots)
    (inBucket : bucket < config.bucketCount) :
    criterion.counts (config.index slot number bucket) ≤ criterion.line config number := by
  have inner := single_le_sum (fun bucket _ => Nat.zero_le
    (criterion.counts (config.index slot number bucket))) (mem_range.mpr inBucket)
  have outer := single_le_sum (fun slot _ => Nat.zero_le
    (∑ bucket ∈ range config.bucketCount, criterion.counts (config.index slot number bucket)))
    (mem_range.mpr inSlots)
  exact inner.trans outer

theorem update_succ (counts : Nat → Nat) (position index : Nat) :
    Function.update counts position (counts position + 1) index =
      counts index + if index = position then 1 else 0 := by
  by_cases same : index = position
  · subst same
    simp
  · simp [same]

/-- The counter of the cell, as a sum over the time slots and the buckets. -/
theorem sum_cell {slots buckets : Nat} (inSlots : slot < slots) (inBucket : bucket < buckets)
    (value : Nat) :
    (∑ other ∈ range slots, ∑ cell ∈ range buckets,
      if other = slot then if cell = bucket then value else 0 else 0) = value := by
  rw [sum_eq_single slot]
  · simp only [if_true, sum_ite_eq', mem_range, inBucket]
  · intro other _ different
    simp [different]
  · exact fun absent => absurd (mem_range.mpr inSlots) absent

/-- The next packet in a cell changes the line of the cell and no other. -/
theorem Criterion.line_update {other : Nat} (inSlots : slot < config.maxTimeslots)
    (inLine : number < config.hashCount) (inBucket : bucket < config.bucketCount)
    (inOther : other < config.hashCount) :
    ({ criterion with
      counts := Function.update criterion.counts (config.index slot number bucket)
        (criterion.counts (config.index slot number bucket) + 1) } : Criterion).line config other =
      criterion.line config other + if other = number then 1 else 0 := by
  have cell : ∀ first ∈ range config.maxTimeslots, ∀ second ∈ range config.bucketCount,
      (if config.index first other second = config.index slot number bucket then 1 else 0) =
        if first = slot then if second = bucket then if other = number then 1 else 0 else 0
        else 0 := by
    intro first _ second inRange
    by_cases same : config.index first other second = config.index slot number bucket
    · obtain ⟨rfl, rfl, rfl⟩ :=
        Config.index_inj inOther (mem_range.mp inRange) inLine inBucket same
      simp
    · have apart : ¬ (first = slot ∧ second = bucket ∧ other = number) := by
        rintro ⟨rfl, rfl, rfl⟩
        exact same rfl
      rw [if_neg same]
      split_ifs <;> simp_all
  simp only [Criterion.line, update_succ, sum_add_distrib]
  rw [sum_congr rfl fun first member => sum_congr rfl (cell first member),
    sum_cell inSlots inBucket]

/-- The counter is inside the array while its time slot is. -/
theorem Criterion.count_eq (fits : config.Fits) (key : Bytes) (positive : 0 < config.bucketCount)
    (inSlots : slot < config.maxTimeslots) (inLine : number < config.hashCount) :
    criterion.count config slot key number = .ok { criterion with
      counts := Function.update criterion.counts
        (config.index slot number (config.bucket number key))
        ((criterion.counts (config.index slot number (config.bucket number key)) + 1) %
          2 ^ 32) } := by
  have inside := @Config.index_lt config slot number _ inLine
    (Nat.mod_lt (hash config.hashData (number * config.hashLineSize) key) positive)
  have before : config.bucketCount * config.hashCount * (slot + 1) ≤
      config.bucketCount * config.hashCount * config.maxTimeslots :=
    Nat.mul_le_mul_left _ inSlots
  have small : config.index slot number (config.bucket number key) <
      config.bucketCount * config.hashCount * config.maxTimeslots := lt_of_lt_of_le inside before
  have bound : config.index slot number (config.bucket number key) < sizeModulus := by
    have whole := fits
    rw [Config.Fits] at whole
    omega
  rw [count, Nat.mod_eq_of_lt bound, fits.countsSize_eq, if_pos small]

variable {packets : Nat}

/-- One more counter of the line of its hash counts the packet. -/
theorem Criterion.Counts.count (key : Bytes) (positive : 0 < config.bucketCount)
    (inSlots : slot < config.maxTimeslots) (inLine : number < config.hashCount)
    (few : packets + 1 < 2 ^ 32) (counted : criterion.Counts config slot packets number) :
    ({ criterion with
      counts := Function.update criterion.counts
        (config.index slot number (config.bucket number key))
        ((criterion.counts (config.index slot number (config.bucket number key)) + 1) %
          2 ^ 32) } : Criterion).Counts config slot packets (number + 1) := by
  have inBucket : config.bucket number key < config.bucketCount := Nat.mod_lt _ positive
  have inside := @Config.index_lt config slot number _ inLine inBucket
  have before : config.bucketCount * config.hashCount * (slot + 1) ≤
      config.bucketCount * config.hashCount * config.maxTimeslots :=
    Nat.mul_le_mul_left _ inSlots
  have room : criterion.counts (config.index slot number (config.bucket number key)) + 1 <
      2 ^ 32 := by
    have below := @counts_le_line config criterion slot number _ inSlots inBucket
    rw [counted.line number inLine, if_neg (Nat.lt_irrefl _)] at below
    omega
  rw [Nat.mod_eq_of_lt room]
  constructor
  case line =>
    intro other inOther
    rw [line_update inSlots inLine inBucket inOther, counted.line other inOther]
    split_ifs <;> omega
  case total =>
    simp only [update_succ, sum_add_distrib, sum_ite_eq', mem_range]
    rw [counted.total, if_pos (by omega)]
    omega
  case unused =>
    intro index behind within
    simp only
    rw [Function.update_of_ne (by omega)]
    exact counted.unused index behind within

/-- The loop over the hashes counts a packet once in each line. -/
theorem Criterion.countAll_spec (fits : config.Fits) (key : Bytes)
    (positive : 0 < config.bucketCount) (inSlots : slot < config.maxTimeslots) {hashes : Nat}
    (within : hashes ≤ config.hashCount) :
    ∃ counts, (List.range hashes).foldlM (Criterion.count config slot key) criterion =
        .ok { criterion with counts := counts } ∧
      ∀ packets, packets + 1 < 2 ^ 32 → criterion.Counts config slot packets 0 →
        ({ criterion with counts := counts } : Criterion).Counts config slot packets hashes := by
  induction hashes with
  | zero => exact ⟨criterion.counts, rfl, fun _ _ counted => counted⟩
  | succ hashes ih =>
    obtain ⟨counts, ran, kept⟩ := ih (Nat.le_of_succ_le within)
    rw [List.range_succ, List.foldlM_append, ran]
    simp only [bind, Except.bind, List.foldlM_cons, List.foldlM_nil,
      count_eq fits key positive inSlots within]
    exact ⟨_, rfl, fun packets few counted =>
      (kept packets few counted).count key positive inSlots within few⟩

variable {biggest : Nat}

theorem Criterion.Counts.next (counted : criterion.Counts config biggest packets config.hashCount) :
    criterion.Counts config biggest (packets + 1) 0 where
  line := fun number inLine => by
    rw [counted.line number inLine, if_pos inLine, if_neg (Nat.not_lt_zero _)]
  total := by
    rw [counted.total, Nat.succ_mul, Nat.add_zero]
  unused := counted.unused

theorem Criterion.Counts.later {later hashes : Nat} (order : biggest ≤ later)
    (counted : criterion.Counts config biggest packets hashes) :
    criterion.Counts config later packets hashes where
  line := counted.line
  total := counted.total
  unused := fun index behind within => counted.unused index
    (le_trans (Nat.mul_le_mul_left _ (Nat.succ_le_succ order)) behind) within

/-- The counters are right until the packets are too many for 32 bits. -/
structure Criterion.Tallied (config : Config) (biggest : Nat) (criterion : Criterion) : Prop where
  packetCount : criterion.packetCount = criterion.seen % 2 ^ 32
  counts : criterion.seen < 2 ^ 32 → criterion.Counts config biggest criterion.seen 0

theorem Criterion.Tallied.later {later : Nat} (order : biggest ≤ later)
    (tallied : criterion.Tallied config biggest) : criterion.Tallied config later :=
  ⟨tallied.packetCount, fun few => (tallied.counts few).later order⟩

theorem Criterion.reset_tallied (fits : config.Fits) :
    (criterion.reset config.countsSize).Tallied config 0 where
  packetCount := rfl
  counts := fun _ => by
    have zero : ∀ index < config.bucketCount * config.hashCount * config.maxTimeslots,
        (criterion.reset config.countsSize).counts index = 0 := by
      intro index inside
      rw [reset, fits.countsSize_eq]
      exact if_pos inside
    constructor
    case line =>
      intro number inLine
      rw [Criterion.line]
      apply sum_eq_zero
      intro slot inSlots
      apply sum_eq_zero
      intro bucket inBucket
      apply zero
      apply lt_of_lt_of_le (Config.index_lt inLine (mem_range.mp inBucket))
      exact Nat.mul_le_mul_left _ (mem_range.mp inSlots)
    case total =>
      rw [sum_eq_zero fun index inside => zero index (mem_range.mp inside)]
      exact (Nat.zero_mul _).symm
    case unused => exact fun index _ inside => zero index inside

theorem Criterion.store_tallied (key : Bytes) (tallied : criterion.Tallied config biggest) :
    (criterion.store config key).Tallied config biggest := by
  rw [store]
  split
  · exact tallied
  · exact ⟨tallied.packetCount, fun few =>
      ⟨(tallied.counts few).line, (tallied.counts few).total, (tallied.counts few).unused⟩⟩

/-- A criterion takes a packet without a write behind its counters. -/
theorem Criterion.take_tallied (fits : config.Fits) (positive : 0 < config.bucketCount)
    (inSlots : slot < config.maxTimeslots) (packet : Layer) {definition : CriterionDef}
    (tallied : criterion.Tallied config slot) :
    Concludes (fun next : Criterion => next.Tallied config slot)
      (fun fault => definition.extractKey packet = .error fault)
      (Criterion.take config slot packet (definition, criterion)) := by
  rw [take]
  cases extracted : definition.extractKey packet with
  | error fault => rfl
  | ok key =>
    cases key with
    | none => exact tallied
    | some key =>
      obtain ⟨counts, ran, kept⟩ := @countAll_spec config { criterion with
        packetCount := (criterion.packetCount + 1) % 2 ^ 32
        seen := criterion.seen + 1 } slot fits key positive inSlots config.hashCount
        (Nat.le_refl _)
      simp only [bind, Except.bind, ran]
      apply store_tallied
      constructor
      case packetCount =>
        show (criterion.packetCount + 1) % 2 ^ 32 = (criterion.seen + 1) % 2 ^ 32
        rw [tallied.packetCount, Nat.mod_add_mod]
      case counts =>
        intro few
        have old := tallied.counts (Nat.lt_of_succ_lt few)
        exact (kept criterion.seen few ⟨old.line, old.total, old.unused⟩).next

end Ucollect.Buckets
