import Ucollect.Construction.Core.MemPool

/-
This file proves that the pages of the pools and of the cache are the mapped pages, and that
they do not overlap.
-/

namespace Ucollect.MemPool
open Library List

namespace Machine
open List

variable (machine : Machine)

theorem word_cases : machine.word = 4 ∨ machine.word = 8 := by
  cases machine <;> simp [word]

theorem word_dvd_pageSize : machine.word ∣ pageSize := by
  cases machine <;> decide

theorem word_dvd_header : machine.word ∣ machine.header := Dvd.intro_left 2 rfl

end Machine

/-- A page has whole units, and its addresses are those of the machine. -/
structure Whole (machine : Machine) (page : Span) : Prop where
  aligned : pageSize ∣ page.start
  units : pageSize ∣ page.size
  positive : 0 < page.size
  reach : page.start + page.size ≤ machine.limit

section Pages

variable {machine : Machine} {memory : Memory} {pages others gone : List Span} {page : Span}
  {offer : Option Nat} {size : Nat}

section

variable (whole : Whole machine page)
include whole

theorem Whole.header_le : machine.header ≤ page.size := by
  have units := Nat.le_of_dvd whole.positive whole.units
  have word := machine.word_cases
  unfold Machine.header
  unfold pageSize at units
  omega

theorem Whole.data_start : machine.word ∣ (data machine page).start :=
  (machine.word_dvd_pageSize.trans whole.aligned).add machine.word_dvd_header

theorem Whole.data_size : machine.word ∣ (data machine page).size :=
  Nat.dvd_sub (machine.word_dvd_pageSize.trans whole.units) machine.word_dvd_header

theorem Whole.data_inside : (data machine page).Inside page := by
  have header := whole.header_le
  simp only [Span.Inside, data]
  omega

end

/-- The pages of the cache and the given ones are those that are mapped. -/
structure Memory.Holds (machine : Machine) (memory : Memory) (pages : List Span) : Prop where
  owners : (pages ++ memory.cache).Perm memory.mapped
  apart : memory.mapped.Pairwise Span.Apart
  whole : ∀ page ∈ memory.mapped, Whole machine page
  single : ∀ page ∈ memory.cache, page.size = pageSize

namespace Memory
open List

section

variable (holds : memory.Holds machine pages)
include holds

theorem Holds.perm (same : pages.Perm others) : memory.Holds machine others :=
  { holds with owners := (same.symm.append_right _).trans holds.owners }

theorem Holds.spread : (pages ++ memory.cache).Pairwise Span.Apart :=
  Span.pairwise_perm holds.owners.symm holds.apart

theorem Holds.known (member : page ∈ pages) : Whole machine page :=
  holds.whole page (holds.owners.subset (mem_append_left _ member))

theorem mmap_concludes (units : pageSize ∣ size) :
    Concludes (fun result => result.2.Holds machine (result.1 :: pages) ∧ result.1.size = size)
      (· = .mapFailed) (memory.mmap machine size offer) := by
  cases offer with
  | none => rfl
  | some start =>
    by_cases vacant : memory.Vacant machine ⟨start, size⟩
    · simp only [mmap, if_pos vacant]
      obtain ⟨positive, above, aligned, reach, free⟩ := vacant
      refine ⟨⟨holds.owners.cons _, pairwise_cons.mpr ⟨free, holds.apart⟩, ?_,
        holds.single⟩, rfl⟩
      intro page member
      rcases mem_cons.mp member with rfl | known
      · exact ⟨aligned, units, positive, reach⟩
      · exact holds.whole page known
    · simp only [mmap, if_neg vacant]
      rfl

theorem pageGet_concludes (units : pageSize ∣ size) :
    Concludes (fun result => result.2.Holds machine (result.1 :: pages) ∧ result.1.size = size)
      (· = .mapFailed) (memory.pageGet machine size offer) := by
  unfold pageGet
  cases cached : memory.cache with
  | nil => exact mmap_concludes holds units
  | cons page cache =>
    by_cases unit : size = pageSize
    · simp only [if_pos unit]
      have single : page.size = size :=
        (holds.single page (cached ▸ mem_cons_self)).trans unit.symm
      have same : (⟨page.start, size⟩ : Span) = page := by rw [← single]
      rw [same]
      refine ⟨⟨?_, holds.apart, holds.whole, ?_⟩, single⟩
      · have owners := holds.owners
        rw [cached] at owners
        exact perm_middle.symm.trans owners
      · intro other member
        exact holds.single other (cached ▸ mem_cons_of_mem _ member)
    · simp only [if_neg unit]
      exact mmap_concludes holds units

end

theorem pageReturn_concludes (holds : memory.Holds machine (page :: pages)) :
    Concludes (fun memory => memory.Holds machine pages) (fun _ => False)
      (memory.pageReturn page) := by
  unfold pageReturn munmap
  by_cases cached : page.size = pageSize ∧ memory.cache.length < pageCacheSize
  · rw [if_pos cached]
    refine ⟨perm_middle.trans holds.owners, holds.apart, holds.whole, ?_⟩
    intro other member
    rcases mem_cons.mp member with rfl | known
    · exact cached.1
    · exact holds.single other known
  · have member : page ∈ memory.mapped := holds.owners.subset mem_cons_self
    rw [if_neg cached, if_pos member]
    refine ⟨?_, holds.apart.sublist erase_sublist, ?_, holds.single⟩
    · have owners := holds.owners.erase page
      rwa [cons_append, erase_cons_head] at owners
    · intro other known
      exact holds.whole other (mem_of_mem_erase known)

theorem pageWalkAndDelete_concludes (holds : memory.Holds machine (gone ++ pages)) :
    Concludes (fun memory => memory.Holds machine pages) (fun _ => False)
      (memory.pageWalkAndDelete gone) := by
  induction gone generalizing pages with
  | nil => exact holds
  | cons page next ih =>
    have behind : memory.Holds machine (next ++ page :: pages) :=
      holds.perm perm_middle.symm
    exact (ih behind).bind fun _ kept => pageReturn_concludes kept

end Memory

/-- What is carved is wide enough, and it is not more than the rest. -/
theorem pageAlloc_cases {pos available : Nat} (aligned : machine.word ∣ pos)
    (whole : machine.word ∣ available) (room : available + machine.word ≤ machine.limit) (size : Nat) :
    available < size ∧ pageAlloc machine pos available size = .ok none ∨
      ∃ width, size ≤ width ∧ width ≤ available ∧ machine.word ∣ width ∧
        pageAlloc machine pos available size = .ok (some ⟨pos, pos + width, available - width⟩) := by
  by_cases short : available < size
  · exact Or.inl ⟨short, if_pos short⟩
  · right
    have fits : size + machine.word - 1 < machine.limit := by
      rcases machine.word_cases with word | word <;> omega
    have rounded : (size + machine.word - 1) / machine.word * machine.word ≤ available := by
      obtain ⟨count, rfl⟩ := whole
      have positive : 0 < machine.word := by rcases machine.word_cases with word | word <;> omega
      rw [Nat.mul_comm machine.word count]
      apply Nat.mul_le_mul_right
      rw [Nat.div_le_iff_le_mul positive, Nat.mul_comm count]
      omega
    refine ⟨(size + machine.word - 1) / machine.word * machine.word, ?_, rounded,
      Dvd.intro_left _ rfl, ?_⟩
    · rcases machine.word_cases with word | word <;> rw [word] <;> omega
    · unfold pageAlloc
      rw [if_neg short, if_neg (not_not.mpr (Nat.mod_eq_zero_of_dvd aligned)),
        Nat.mod_eq_of_lt fits]
      simp only [if_neg (Nat.not_lt.mpr rounded)]

end Pages

end Ucollect.MemPool

/-
This file proves that the blocks of a pool, its control structure and its free memory do not
overlap, and that they are in the pages of the pool.
-/

namespace Ucollect.MemPool
open Library List

namespace Pool
open List

/-- The free memory is first, and the control structure is last. -/
def footprint (machine : Machine) (pool : Pool) : List Span :=
  ⟨pool.pos, pool.available⟩ :: (pool.blocks ++ [⟨pool.address, pool.structSize machine⟩])

/-- The control structure starts the first page, and all spans are in the pages. -/
structure Formed (machine : Machine) (pool : Pool) : Prop where
  single : pool.first.size = pageSize
  place : pool.address = (data machine pool.first).start
  short : machine.header + machine.control + (1 + pool.nameLength) < pageSize
  pos : machine.word ∣ pool.pos
  available : machine.word ∣ pool.available
  apart : (pool.footprint machine).Pairwise Span.Apart
  inside : ∀ span ∈ pool.footprint machine, ∃ page ∈ pool.pages, span.Inside (data machine page)
  aligned : ∀ block ∈ pool.blocks, machine.word ∣ block.start

section Changes

variable {machine : Machine} {pool : Pool} {page : Span} {size width : Nat}

/-- The free memory is in one page, so the machine has room behind it. -/
theorem Formed.room (formed : pool.Formed machine)
    (whole : ∀ page ∈ pool.pages, Whole machine page) :
    pool.available + machine.word ≤ machine.limit := by
  obtain ⟨page, owned, inside⟩ := formed.inside _ mem_cons_self
  have reach := (whole page owned).reach
  have header := (whole page owned).header_le
  unfold Machine.header at header
  simp only [Span.Inside, data, Machine.header] at inside
  omega

/-- The statistics do not matter. -/
theorem Formed.count (formed : pool.Formed machine) (allocated : Nat) :
    Formed machine { pool with allocated } :=
  { formed with }

/-- A block is cut from the free memory. -/
theorem Formed.cut (formed : pool.Formed machine) (fits : size ≤ width)
    (within : width ≤ pool.available) (words : machine.word ∣ width) :
    (World.account machine
      { pool with pos := pool.pos + width, available := pool.available - width }
      pool.pos size).Formed machine := by
  have piece : Span.Inside ⟨pool.pos, size⟩ ⟨pool.pos, pool.available⟩ := by
    simp only [Span.Inside]
    omega
  have rest : Span.Inside ⟨pool.pos + width, pool.available - width⟩ ⟨pool.pos, pool.available⟩ := by
    simp only [Span.Inside]
    omega
  have cut : Span.Apart ⟨pool.pos + width, pool.available - width⟩ ⟨pool.pos, size⟩ := by
    simp only [Span.Apart]
    omega
  obtain ⟨page, owned, around⟩ := formed.inside _ mem_cons_self
  refine ⟨formed.single, formed.place, formed.short, formed.pos.add words,
    Nat.dvd_sub formed.available words, Span.pairwise_cut formed.apart piece rest cut, ?_, ?_⟩
  · intro span member
    rcases mem_cons.mp member with rfl | member
    · exact ⟨page, owned, rest.trans around⟩
    · rcases mem_cons.mp member with rfl | member
      · exact ⟨page, owned, piece.trans around⟩
      · exact formed.inside span (mem_cons_of_mem _ member)
  · intro block member
    rcases mem_cons.mp member with rfl | member
    · exact formed.pos
    · exact formed.aligned block member

section

variable (formed : pool.Formed machine)
include formed

/-- The data of a new page is apart from all that the pool has. -/
theorem Formed.renew (whole : ∀ known ∈ page :: pool.pages, Whole machine known)
    (fresh : (page :: pool.pages).Pairwise Span.Apart) :
    (data machine page :: pool.footprint machine).Pairwise Span.Apart := by
  refine pairwise_cons.mpr ⟨?_, formed.apart⟩
  intro span member
  obtain ⟨other, owned, inside⟩ := formed.inside span member
  have away := (pairwise_cons.mp fresh).1 other owned
  exact away.inside (whole page mem_cons_self).data_inside
    (inside.trans (whole other (mem_cons_of_mem _ owned)).data_inside)

theorem Formed.inside_renewed {span : Span} (member : span ∈ pool.footprint machine) :
    ∃ known ∈ pool.first :: page :: pool.next, span.Inside (data machine known) := by
  obtain ⟨other, owned, inside⟩ := formed.inside span member
  refine ⟨other, ?_, inside⟩
  rcases mem_cons.mp owned with rfl | behind
  · exact mem_cons_self
  · exact mem_cons_of_mem _ (mem_cons_of_mem _ behind)

/-- The free memory is the data of the new page. -/
theorem Formed.move (whole : ∀ known ∈ page :: pool.pages, Whole machine known)
    (fresh : (page :: pool.pages).Pairwise Span.Apart) :
    Formed machine
      { pool with
        next := page :: pool.next, pos := (data machine page).start
        available := (data machine page).size } := by
  have start := whole page mem_cons_self
  refine ⟨formed.single, formed.place, formed.short, start.data_start, start.data_size,
    (formed.renew whole fresh).sublist ((sublist_cons_self _ _).cons_cons _), ?_,
    formed.aligned⟩
  intro span member
  rcases mem_cons.mp member with rfl | member
  · exact ⟨page, mem_cons_of_mem _ mem_cons_self, Span.Inside.refl _⟩
  · exact formed.inside_renewed (mem_cons_of_mem _ member)

/-- The block is in the new page, and the free memory stays where it was. -/
theorem Formed.keep (whole : ∀ known ∈ page :: pool.pages, Whole machine known)
    (fresh : (page :: pool.pages).Pairwise Span.Apart) (fits : size ≤ (data machine page).size) :
    (World.account machine { pool with next := page :: pool.next } (data machine page).start
      size).Formed machine := by
  have piece : Span.Inside ⟨(data machine page).start, size⟩ (data machine page) := by
    simp only [Span.Inside]
    omega
  have aside : (⟨(data machine page).start, size⟩ :: pool.footprint machine).Pairwise
      Span.Apart := by
    have renewed := formed.renew whole fresh
    rw [pairwise_cons] at renewed ⊢
    exact ⟨fun span member => (renewed.1 span member).inside piece (Span.Inside.refl span),
      renewed.2⟩
  refine ⟨formed.single, formed.place, formed.short, formed.pos, formed.available,
    Span.pairwise_perm (List.Perm.swap _ _ _) aside, ?_, ?_⟩
  · intro span member
    rcases mem_cons.mp member with rfl | member
    · exact formed.inside_renewed mem_cons_self
    · rcases mem_cons.mp member with rfl | member
      · exact ⟨page, mem_cons_of_mem _ mem_cons_self, piece⟩
      · exact formed.inside_renewed (mem_cons_of_mem _ member)
  · intro block member
    rcases mem_cons.mp member with rfl | member
    · exact (whole page mem_cons_self).data_start
    · exact formed.aligned block member

end

end Changes

end Pool

section Fresh

variable {machine : Machine} {page : Span} {nameLength : Nat}

/-- The control structure is cut from the first page, and the rest of the page is free. -/
theorem pageAlloc_control (whole : Whole machine page) (single : page.size = pageSize)
    (short : machine.header + machine.control + (1 + nameLength) < pageSize) :
    ∃ carved, pageAlloc machine (page.start + machine.header) (page.size - machine.header)
        (machine.control + (1 + nameLength)) = .ok (some carved) ∧
      carved.result = (data machine page).start ∧
      ∀ pool : Pool, pool.address = (data machine page).start → pool.nameLength = nameLength →
        pool.first = page → pool.next = [] → pool.pos = carved.pos →
        pool.available = carved.available → pool.blocks = [] → pool.Formed machine := by
  have room : page.size - machine.header + machine.word ≤ machine.limit := by
    have reach := whole.reach
    have header := whole.header_le
    unfold Machine.header at header ⊢
    omega
  rcases pageAlloc_cases whole.data_start whole.data_size room
    (machine.control + (1 + nameLength)) with ⟨small, _⟩ | ⟨width, fits, within, words, carved⟩
  · simp only [data] at small
    omega
  · refine ⟨_, carved, rfl, ?_⟩
    rintro pool address rfl rfl next pos available blocks
    have control : Span.Inside ⟨pool.address, pool.structSize machine⟩
        (data machine pool.first) := by
      simp only [Span.Inside, Pool.structSize, address]
      omega
    have rest : Span.Inside ⟨pool.pos, pool.available⟩ (data machine pool.first) := by
      simp only [Span.Inside, pos, available]
      omega
    have footprint : pool.footprint machine =
        [⟨pool.pos, pool.available⟩, ⟨pool.address, pool.structSize machine⟩] := by
      simp [Pool.footprint, blocks]
    refine ⟨single, address, short, ?_, ?_, ?_, ?_, ?_⟩
    · rw [pos]
      exact whole.data_start.add words
    · rw [available]
      exact Nat.dvd_sub whole.data_size words
    · rw [footprint]
      have cut : Span.Apart ⟨pool.pos, pool.available⟩ ⟨pool.address, pool.structSize machine⟩ := by
        simp only [Span.Apart, Pool.structSize, address, pos]
        omega
      simpa using cut
    · rw [footprint]
      intro span member
      refine ⟨pool.first, mem_cons_self, ?_⟩
      rcases mem_pair.mp member with rfl | rfl
      · exact rest
      · exact control
    · simp [blocks]

end Fresh

end Ucollect.MemPool
