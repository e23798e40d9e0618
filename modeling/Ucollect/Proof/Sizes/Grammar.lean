import Ucollect.Proof.Sizes.Filter
import Ucollect.Proof.Flow.Reading
import Ucollect.Proof.Trie.Marks

/-
This file proves when the sizes of a message are safe, and that they always are for a `size_t` of 64
bits.
-/

namespace Ucollect.Sizes
open Library Core MemPool Flow List Option

section Wide

variable {source : Source}

theorem readWord32_lt {count : Nat} {later : Source} (read : lift readWord32 source = some (count, later)) :
    count < 2 ^ 32 := by
  rw [lift, readWord32, Option.map_map] at read
  rcases whole : cut 4 source.input with _ | ⟨front, rest⟩
  · rw [whole] at read
    cases read
  · rw [whole] at read
    cases read
    exact bigEndian_lt (cut_eq_some whole).1

theorem stringFits_wide (input : Bytes) : StringFits .wide input := by
  intro enough
  have small := @bigEndian_lt (input.take lengthSize) (by rw [length_take]; simp [lengthSize] at *; omega)
  simp only [lengthSize, Machine.limit, Machine.header, Machine.word, pageSize] at *
  omega

theorem activationsFit_wide (left : Nat) (source : Source) : ActivationsFit .wide left source := by
  induction left generalizing source with
  | zero => trivial
  | succ left ih => exact ⟨stringFits_wide _, fun _ later _ => ih later⟩

theorem activationFits_wide (source : Source) : ActivationFits .wide source := by
  intro amount later read _
  have small := readWord32_lt read
  refine ⟨?_, activationsFit_wide amount later⟩
  simp only [activationSize, Machine.limit, Machine.header, Machine.word, pageSize]
  omega

theorem manySubsFit_wide {one : Source → Option (Filter × Source)} {fits : Source → Prop}
    (fitting : ∀ source, fits source) (source : Source) : ManySubsFit .wide one fits source := by
  have subs : ∀ left source, SubsFit one fits left source := by
    intro left
    induction left with
    | zero => exact fun source => trivial
    | succ left ih => exact fun source => ⟨fitting source, fun _ later _ => ih later⟩
  intro count later read
  have small := readWord32_lt read
  refine ⟨?_, subs count later⟩
  simp only [filterSize, Machine.limit, Machine.header, Machine.word, pageSize]
  omega

theorem filterFits_wide (fuel : Nat) (source : Source) : FilterFits .wide fuel source := by
  induction fuel generalizing source with
  | zero => trivial
  | succ fuel ih =>
    intro code later read
    rw [BodyFits]
    split
    · exact ih later
    · split
      · exact manySubsFit_wide ih later
      · split
        · exact stringFits_wide _
        · trivial

end Wide

/-- The parsers stay inside the message and inside their blocks, and no size wraps, exactly when the
sizes in the message fit. -/
theorem parsers_safe_iff (machine : Machine) (message : Bytes) (cursor : Cursor) (source : Source)
    (related : Cursor.At message cursor source) (fuel : Nat) :
    ((uplinkParseString machine message cursor).Safe ↔ StringFits machine source.input) ∧
    ((handleActivation machine message cursor).Safe ↔ ActivationFits machine source) ∧
    (∀ combine ∈ [Filter.conjunction, Filter.disjunction],
      ((parseManySubs machine message (parseOne machine message fuel) combine cursor).Safe ↔
        ManySubsFit machine (oneOf fuel) (FilterFits machine fuel) source)) ∧
    (machine = .wide → StringFits machine source.input ∧ ActivationFits machine source ∧
      ManySubsFit machine (oneOf fuel) (FilterFits machine fuel) source) := by
  refine ⟨tracks_uplinkParseString.safe_iff related, tracks_handleActivation.safe_iff related, ?_, ?_⟩
  · intro combine member
    have combined : ∀ filters, takenFilter (combine filters) = takenFilters filters := by
      simp only [mem_cons, not_mem_nil, or_false] at member
      rcases member with rfl | rfl <;> exact fun _ => rfl
    exact (tracks_parseManySubs combined (tracks_parseOne fuel)).safe_iff related
  · rintro rfl
    exact ⟨stringFits_wide _, activationFits_wide _, manySubsFit_wide (filterFits_wide fuel) _⟩

/-- The parser starts before a whole message. -/
def Cursor.start (message : Bytes) (available : Nat) : Cursor := ⟨0, message.length, available, 0⟩

/-- An activation of `Flow` and a deactivation of `C`. -/
def sampleRecords : Bytes :=
  word32 2 ++
    (renderString [letter 'F', letter 'l', letter 'o', letter 'w'] ++ List.replicate 16 7 ++
      [letter 'A']) ++
    (renderString [letter 'C'] ++ List.replicate 16 9 ++ [letter 'I'])

/-- The filters are `!P(80,443)`, `|(T,r(192.168.0.0/16))` and `D(s)`. -/
def sampleFilters : Bytes :=
  word32 3 ++ (letter '!' :: letter 'P' :: word16 2 ++ word16 80 ++ word16 443) ++
    (letter '|' :: word32 2 ++ [letter 'T', letter 'r', 4, 16, 192, 168]) ++
    (letter 'D' :: renderString [letter 's'])

/-- A `size_t` of 64 bits is wide enough for these messages, and the parsers read all of them. -/
theorem parsers_safe_samples :
    ((uplinkParseString .wide (sampleRecords.drop 4) (.start (sampleRecords.drop 4) 4000)).Safe ∧
      (handleActivation .wide sampleRecords (.start sampleRecords 4000)).Safe ∧
      (parseManySubs .wide sampleFilters (parseOne .wide sampleFilters 4) .conjunction
        (.start sampleFilters 4000)).Safe) ∧
    (handleActivation .wide sampleRecords (.start sampleRecords 4000)).returned = true ∧
    (parseManySubs .wide sampleFilters (parseOne .wide sampleFilters 4) .conjunction
      (.start sampleFilters 4000)).returned = true := by
  obtain ⟨name, -, -, wideName⟩ := parsers_safe_iff .wide (sampleRecords.drop 4)
    (.start (sampleRecords.drop 4) 4000) ⟨sampleRecords.drop 4, 0⟩
    ⟨by decide, rfl, rfl, by decide, by decide, rfl⟩ 4
  obtain ⟨-, records, -, wideRecords⟩ := parsers_safe_iff .wide sampleRecords
    (.start sampleRecords 4000) ⟨sampleRecords, 0⟩ ⟨by decide, rfl, rfl, by decide, by decide, rfl⟩ 4
  obtain ⟨-, -, filters, wideFilters⟩ := parsers_safe_iff .wide sampleFilters
    (.start sampleFilters 4000) ⟨sampleFilters, 0⟩ ⟨by decide, rfl, rfl, by decide, by decide, rfl⟩ 4
  exact ⟨⟨name.mpr (wideName rfl).1, records.mpr (wideRecords rfl).2.1,
    (filters _ mem_cons_self).mpr (wideFilters rfl).2.2⟩, by decide +kernel, by decide +kernel⟩

section Wrapping

/-- The sum of this length and the size of the length is less than the message. -/
def longString : Bytes := word32 0xFFFFFFFF

/-- The records of this message take eight bytes more than a `size_t` of 32 bits can hold. -/
def manyRecords : Bytes := word32 0x0AAAAAAB ++ renderString [] ++ List.replicate 17 (letter 'A')

def manyFilters : Bytes := word32 0x071C71C8 ++ [letter 'T']

theorem parsers_outside :
    (uplinkParseString .narrow longString (.start longString 4000)).outside = true ∧
    (handleActivation .narrow manyRecords (.start manyRecords 4000)).outside = true ∧
    (parseManySubs .narrow manyFilters (parseOne .narrow manyFilters 5) .conjunction
      (.start manyFilters 4000)).outside = true := by
  decide +kernel

end Wrapping

end Ucollect.Sizes

/-
This file proves which strings the filter parser accepts.
-/

namespace Ucollect.Sizes
open Library Core MemPool Flow FilterTree List Option

section Tries

theorem takes_eq (trie : Trie Unit) (keys : List Bytes) :
    takes trie keys = (runOps trie (marking keys)).isOk := by
  induction keys generalizing trie with
  | nil => rfl
  | cons key keys ih =>
    rw [takes, markKey, marking, map_cons, runOps, foldlM_cons, TrieOp.run]
    rcases trieIndex trie key with abort | ⟨next, _ | slot⟩
    · rfl
    · exact ih next
    · exact ih (next.store slot (some ()))

/-- Keys of one length cut no edge. -/
theorem takes_alike {keys : List Bytes} {size : Nat} (alike : ∀ key ∈ keys, key.length = size) :
    takes (trieAlloc Unit) keys = true := by
  obtain ⟨trie, run, _⟩ := indexed_of_uncut (@uncut_of_length [] keys size alike)
  rw [takes_eq, run]
  rfl

end Tries

/-- No assertion of a trie fails for the list of addresses. -/
def TakenNode : FilterTree → Prop
  | .addresses _ list => takes (trieAlloc Unit) list = true
  | _ => True

def Taken (tree : FilterTree) : Prop := tree.Everywhere TakenNode

theorem takenFilters_compileAll {children : List FilterTree}
    (each : ∀ child ∈ children, ∀ store,
      takenFilter (compile child store) = true ↔ Taken child) (store : Nat) :
    takenFilters (compileAll children store) = true ↔ EverywhereAll TakenNode children := by
  induction children generalizing store with
  | nil => simp [compileAll, takenFilters, EverywhereAll]
  | cons child children ih =>
    rw [forall_mem_cons] at each
    rw [compileAll, takenFilters, Bool.and_eq_true, each.1, ih each.2]
    rfl

theorem takenFilter_compile (tree : FilterTree) :
    ∀ store, takenFilter (compile tree store) = true ↔ Taken tree := by
  induction tree using tree_induction with
  | always => exact fun store => iff_of_true rfl trivial
  | never => exact fun store => iff_of_true rfl trivial
  | negation child ih =>
    intro store
    rw [compile, takenFilter, ih]
    simp [Taken, Everywhere, TakenNode]
  | conjunction children ih =>
    intro store
    rw [compile, takenFilter, takenFilters_compileAll ih]
    simp [Taken, Everywhere, TakenNode]
  | disjunction children ih =>
    intro store
    rw [compile, takenFilter, takenFilters_compileAll ih]
    simp [Taken, Everywhere, TakenNode]
  | addresses side list => exact fun store => Iff.rfl
  | ports side list =>
    refine fun store => iff_of_true (@takes_alike _ 2 ?_) trivial
    simp [word16]
  | differential side name content => exact fun store => iff_of_true rfl trivial
  | range side v6 netmask bytes => exact fun store => iff_of_true rfl trivial

/-- A description does not have the content of its stores. -/
def Unfilled : FilterTree → Prop
  | .differential _ _ content => content = []
  | _ => True

/-- The string is empty, or it is the whole encoding of a documented tree. -/
def Documented (message : Bytes) : Prop :=
  message = [] ∨ ∃ tree : FilterTree, tree.Legal ∧ tree.Everywhere Unfilled ∧ message = tree.encode

/-- If the parser finds a tree at the front of the string, then nothing follows it and each family
and each length in it is documented, or a trie does not take its addresses. -/
def Orderly (message : Bytes) : Prop :=
  ∀ tree written rest, tree.Loose → tree.Writes written → message = written ++ rest →
    (Taken tree ↔ rest = [] ∧ tree.Legal ∧ written = tree.encode)

/-- The parser stays inside its string and its blocks, and it accepts the documented strings. -/
def AcceptsGrammar (machine : Machine) (message : Bytes) (available : Nat) : Prop :=
  let run := filterParse machine message (.start message available)
  run.Safe ∧ (run.returned = true ↔ Documented message)

theorem writesAll_encodeAll {children : List FilterTree}
    (each : ∀ child ∈ children, child.Writes child.encode) : WritesAll children (encodeAll children) := by
  induction children with
  | nil => rfl
  | cons child children ih =>
    rw [forall_mem_cons] at each
    exact ⟨child.encode, encodeAll children, each.1, ih each.2, rfl⟩

/-- The documented encoding is one of the encodings that the parser takes. -/
theorem writes_encode (tree : FilterTree) : tree.Writes tree.encode := by
  induction tree using tree_induction with
  | always => rfl
  | never => rfl
  | negation child ih => exact ⟨child.encode, ih, rfl⟩
  | conjunction children ih => exact ⟨encodeAll children, writesAll_encodeAll ih, rfl⟩
  | disjunction children ih => exact ⟨encodeAll children, writesAll_encodeAll ih, rfl⟩
  | addresses side list => rfl
  | ports side list => rfl
  | differential side name content => rfl
  | range side v6 netmask bytes => exact ⟨if v6 then 6 else 4, by cases v6 <;> rfl, rfl⟩

variable {tree : FilterTree}

theorem loose_of_legal (legal : tree.Legal) (unfilled : tree.Everywhere Unfilled) : tree.Loose := by
  refine Everywhere.derive ?_ legal unfilled
  intro tree legal unfilled
  cases tree with
  | addresses side list => exact ⟨legal.here.1, legal_short legal.here.2⟩
  | differential side name content => exact ⟨legal.here, unfilled.here⟩
  | _ => exact legal.here

theorem unfilled_of_loose (loose : tree.Loose) : tree.Everywhere Unfilled := by
  refine Everywhere.derive ?_ loose loose
  intro tree loose _
  cases tree with
  | differential side name content => exact loose.here.2
  | _ => trivial

/-- The parser accepts what starts with a tree whose keys the tries take. -/
theorem accepted_iff (message : Bytes) :
    (filterOf ⟨message, 0⟩).isSome = true ↔ message = [] ∨
      ∃ tree written rest, tree.Loose ∧ tree.Writes written ∧ message = written ++ rest ∧
        Taken tree := by
  by_cases empty : message = []
  · simp [filterOf, empty]
  rw [filterOf, if_neg empty, oneOf, parseOne_readTree, keep, bind_map]
  simp only [empty, false_or]
  constructor
  · intro accepted
    rcases read : readTree message.length message with _ | ⟨tree, rest⟩
    · simp [read] at accepted
    · obtain ⟨written, writes, loose, whole⟩ := readTree_written read
      refine ⟨tree, written, rest, loose, writes, whole, ?_⟩
      rw [← takenFilter_compile tree 0]
      by_contra refused
      simp [read, compiled, refused] at accepted
  · rintro ⟨tree, written, rest, loose, writes, rfl, taken⟩
    have deep := depth_le_written tree written writes
    have read := readTree_writes tree loose written writes (written ++ rest).length rest (by
      rw [length_append]
      omega)
    have kept := (takenFilter_compile tree 0).mpr taken
    rw [read]
    simp [compiled, kept]

/-- The string tells the tree and where it ends. -/
theorem written_unique {first second : FilterTree} {one two oneRest twoRest : Bytes}
    (firstLoose : first.Loose) (secondLoose : second.Loose) (firstWrites : first.Writes one)
    (secondWrites : second.Writes two) (same : one ++ oneRest = two ++ twoRest) :
    first = second ∧ oneRest = twoRest := by
  have firstDeep := depth_le_written first one firstWrites
  have secondDeep := depth_le_written second two secondWrites
  have firstRead := readTree_writes first firstLoose one firstWrites (one.length + two.length)
    oneRest (by omega)
  have secondRead := readTree_writes second secondLoose two secondWrites (one.length + two.length)
    twoRest (by omega)
  rw [same, secondRead] at firstRead
  cases firstRead
  exact ⟨rfl, rfl⟩

theorem writes_nonempty {written : Bytes} (writes : tree.Writes written) : written ≠ [] := by
  have deep := depth_le_written tree written writes
  have positive := depth_pos tree
  rintro rfl
  rw [length_nil] at deep
  omega

theorem accepted_documented_iff (message : Bytes) :
    ((filterOf ⟨message, 0⟩).isSome = true ↔ Documented message) ↔ Orderly message := by
  rw [accepted_iff]
  constructor
  · intro same tree written rest loose writes whole
    have nonempty : message ≠ [] := by
      rw [whole]
      exact append_ne_nil_of_left_ne_nil (writes_nonempty writes) rest
    constructor
    · intro taken
      have documented := same.mp (Or.inr ⟨tree, written, rest, loose, writes, whole, taken⟩)
      obtain ⟨other, legal, unfilled, encoded⟩ := documented.resolve_left nonempty
      obtain ⟨rfl, rfl⟩ := written_unique loose (loose_of_legal legal unfilled) writes
        (writes_encode other) (by rw [← whole, encoded, append_nil])
      refine ⟨rfl, legal, ?_⟩
      rw [← encoded, whole, append_nil]
    · rintro ⟨rfl, legal, rfl⟩
      have accepted := same.mpr (Or.inr ⟨tree, legal, unfilled_of_loose loose, by
        rw [whole, append_nil]⟩)
      obtain ⟨other, written, rest, otherLoose, otherWrites, split, taken⟩ :=
        accepted.resolve_left nonempty
      obtain ⟨rfl, _⟩ := written_unique loose otherLoose writes otherWrites (whole.symm.trans split)
      exact taken
  · intro orderly
    constructor
    · rintro (empty | ⟨tree, written, rest, loose, writes, whole, taken⟩)
      · exact Or.inl empty
      · obtain ⟨rfl, legal, rfl⟩ := (orderly tree written rest loose writes whole).mp taken
        exact Or.inr ⟨tree, legal, unfilled_of_loose loose, by rw [whole, append_nil]⟩
    · rintro (empty | ⟨tree, legal, unfilled, rfl⟩)
      · exact Or.inl empty
      · have loose := loose_of_legal legal unfilled
        have writes := writes_encode tree
        refine Or.inr ⟨tree, tree.encode, [], loose, writes, (append_nil _).symm, ?_⟩
        exact (orderly tree tree.encode [] loose writes (append_nil _).symm).mpr ⟨rfl, legal, rfl⟩

theorem start_at {message : Bytes} {available : Nat} (small : message.length < 2 ^ 32)
    (page : available ≤ pageSize) : Cursor.At message (.start message available) ⟨message, 0⟩ :=
  ⟨Nat.zero_le _, rfl, rfl, small, page, rfl⟩

/-- The parser accepts the documented strings exactly where the sizes fit and the string is
orderly. -/
theorem filterParse_accepts_iff (machine : Machine) (message : Bytes) (available : Nat)
    (small : message.length < 2 ^ 32) (page : available ≤ pageSize) :
    AcceptsGrammar machine message available ↔
      FilterFits machine message.length ⟨message, 0⟩ ∧ Orderly message := by
  have related := start_at small page
  rw [AcceptsGrammar, ← accepted_documented_iff]
  rw [(@tracks_filterParse machine message).safe_iff related]
  apply and_congr_right
  intro fits
  rw [tracks_filterParse.returned_eq related fits]

theorem filterParse_accepts_iff_sample :
    AcceptsGrammar .wide [letter 'T', letter 'F'] 4000 ↔
      FilterFits .wide 2 ⟨[letter 'T', letter 'F'], 0⟩ ∧ Orderly [letter 'T', letter 'F'] :=
  filterParse_accepts_iff .wide [letter 'T', letter 'F'] 4000 (by decide) (by decide)

/-- What follows a filter is ignored. -/
theorem filterParse_trailing :
    (filterParse .wide [letter 'T', letter 'F'] (.start [letter 'T', letter 'F'] 4000)).returned =
      true ∧ ¬ Documented [letter 'T', letter 'F'] := by
  refine ⟨by decide, ?_⟩
  rintro (empty | ⟨tree, legal, unfilled, encoded⟩)
  · cases empty
  · have loose : FilterTree.always.Loose := trivial
    have writes : FilterTree.always.Writes [letter 'T'] := rfl
    have split : [letter 'T'] ++ [letter 'F'] = tree.encode ++ [] := by
      rw [← encoded]
      rfl
    have same := (written_unique loose (loose_of_legal legal unfilled) writes
      (writes_encode tree) split).2
    cases same

end Ucollect.Sizes
