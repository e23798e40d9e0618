import Ucollect.Proof.Flow.Meaning

/-
This file proves which strings of bytes the filter parser reads as a tree.
-/

namespace Ucollect.Flow
open Library Core FilterTree List Option

namespace FilterTree
open List Option

mutual

/-- The parser takes these bytes for the tree. The family of a range is only compared to 6. -/
def Writes : FilterTree → Bytes → Prop
  | .always, written => written = [letter 'T']
  | .never, written => written = [letter 'F']
  | .negation child, written => ∃ inner, child.Writes inner ∧ written = letter '!' :: inner
  | .conjunction children, written => ∃ inner, WritesAll children inner ∧
      written = letter '&' :: (word32 children.length ++ inner)
  | .disjunction children, written => ∃ inner, WritesAll children inner ∧
      written = letter '|' :: (word32 children.length ++ inner)
  | .addresses side list, written => written = (FilterTree.addresses side list).encode
  | .ports side list, written => written = (FilterTree.ports side list).encode
  | .differential side name content, written =>
    written = (FilterTree.differential side name content).encode
  | .range side v6 netmask bytes, written => ∃ family, v6 = (family == 6) ∧
      written = rangeCode side :: family :: netmask.toUInt8 :: bytes

/-- The children are written behind each other. -/
def WritesAll : List FilterTree → Bytes → Prop
  | [], written => written = []
  | child :: children, written => ∃ first rest, child.Writes first ∧ WritesAll children rest ∧
      written = first ++ rest

end

/-- The counts and sizes fit into their fields, but an address may have any length. -/
def LooseNode : FilterTree → Prop
  | .conjunction children => children.length < 2 ^ 32
  | .disjunction children => children.length < 2 ^ 32
  | .addresses _ list => list.length < 2 ^ 32 ∧ ∀ address ∈ list, address.length < 2 ^ 8
  | .ports _ list => list.length < 2 ^ 16
  | .differential _ name content => name.length < 2 ^ 32 ∧ content = []
  | .range _ v6 netmask bytes =>
    0 < netmask ∧ netmask ≤ (if v6 then 128 else 32) ∧ bytes.length = (netmask + 7) / 8
  | _ => True

/-- Every node of the tree satisfies the weak conditions. -/
def Loose (tree : FilterTree) : Prop := tree.Everywhere LooseNode

end FilterTree

/-- The types of nodes that the parser knows. -/
inductive Shape where
  | constant (value : Bool)
  | negation
  | combination (all : Bool)
  | addresses (side : Side)
  | ports (side : Side)
  | differential (side : Side)
  | range (side : Side)
  deriving DecidableEq

namespace Shape
open List Option

/-- This is the byte that stands for the shape. -/
def code : Shape → UInt8
  | .constant value => letter (if value then 'T' else 'F')
  | .negation => letter '!'
  | .combination all => letter (if all then '&' else '|')
  | .addresses side => addressCode side
  | .ports side => portCode side
  | .differential side => differentialCode side
  | .range side => rangeCode side

def all : List Shape :=
  [.constant true, .constant false, .negation, .combination true, .combination false,
    .addresses .near, .addresses .remote, .ports .near, .ports .remote, .differential .near,
    .differential .remote, .range .near, .range .remote]

/-- An unknown byte has no shape. -/
def ofCode (code : UInt8) : Option Shape := all.find? fun shape => shape.code == code

/-- Each shape has a code of its own. -/
theorem ofCode_code (shape : Shape) : ofCode shape.code = some shape := by
  cases shape with
  | constant value => cases value <;> rfl
  | negation => rfl
  | combination all => cases all <;> rfl
  | addresses side => cases side <;> rfl
  | ports side => cases side <;> rfl
  | differential side => cases side <;> rfl
  | range side => cases side <;> rfl

theorem code_of_ofCode {code : UInt8} {shape : Shape} (known : ofCode code = some shape) :
    shape.code = code := by
  have same := List.find?_some known
  exact eq_of_beq same

end Shape

/-- This is the part of the parser behind the code. -/
def parseShape (parseOne : Bytes → Nat → Option (Parse Filter)) :
    Shape → Bytes → Nat → Option (Parse Filter)
  | .constant value, input, store => some ⟨.constant value, input, store⟩
  | .negation, input, store =>
    (parseOne input store).map fun sub => ⟨.negation sub.value, sub.rest, sub.nextStore⟩
  | .combination all, input, store =>
    parseManySubs parseOne (if all then .conjunction else .disjunction) input store
  | .addresses side, input, store => leaf (parseAddressMatch side input) store
  | .ports side, input, store => leaf (parsePortMatch side input) store
  | .differential side, input, store => parseDifferential side input store
  | .range side, input, store => leaf (parseRange side input) store

/-- The first byte chooses the type of the node. -/
theorem parseOne_cons (fuel : Nat) (code : UInt8) (input : Bytes) (store : Nat) :
    parseOne (fuel + 1) (code :: input) store =
      (Shape.ofCode code).bind fun shape => parseShape (parseOne fuel) shape input store := by
  cases known : Shape.ofCode code with
  | some shape =>
    rw [← Shape.code_of_ofCode known]
    cases shape with
    | constant value => cases value <;> rfl
    | negation => rfl
    | combination all => cases all <;> rfl
    | addresses side => cases side <;> rfl
    | ports side => cases side <;> rfl
    | differential side => cases side <;> rfl
    | range side => cases side <;> rfl
  | none =>
    have other : ∀ byte ∈ Shape.all.map Shape.code, ¬ code = byte := by
      intro byte member same
      obtain ⟨shape, listed, rfl⟩ := List.mem_map.mp member
      have missing := List.find?_eq_none.mp known shape listed
      exact missing (by simp [same])
    rw [parseOne, parseByte, bind_some]
    dsimp only
    rw [if_neg (other (letter 'T') (by decide)), if_neg (other (letter 'F') (by decide)),
      if_neg (other (letter '!') (by decide)), if_neg (other (letter '&') (by decide)),
      if_neg (other (letter '|') (by decide)), if_neg (other (letter 'i') (by decide)),
      if_neg (other (letter 'I') (by decide)), if_neg (other (letter 'p') (by decide)),
      if_neg (other (letter 'P') (by decide)), if_neg (other (letter 'd') (by decide)),
      if_neg (other (letter 'D') (by decide)), if_neg (other (letter 'r') (by decide)),
      if_neg (other (letter 'R') (by decide))]
    rfl

section Readers

/-- The trees are read behind each other. -/
def readTrees (read : Bytes → Option (FilterTree × Bytes)) :
    Nat → Bytes → Option (List FilterTree × Bytes)
  | 0, input => some ([], input)
  | count + 1, input => (read input).bind fun (tree, input) =>
    (readTrees read count input).map fun (trees, input) => (tree :: trees, input)

/-- The key of a port has the high byte first. -/
def portOf (key : Bytes) : UInt16 := UInt16.ofNat (bigEndian key)

def readRange (side : Side) : Bytes → Option (FilterTree × Bytes)
  | family :: netmask :: input =>
    if (if family == 6 then 16 else 4) < (netmask.toNat + 7) / 8 then none
    else (cut ((netmask.toNat + 7) / 8) input).bind fun (bytes, input) =>
      if netmask = 0 then none
      else some (.range side (family == 6) netmask.toNat bytes, input)
  | _ => none

/-- The tree is what the parser compiles. -/
def readShape (read : Bytes → Option (FilterTree × Bytes)) :
    Shape → Bytes → Option (FilterTree × Bytes)
  | .constant value, input => some (if value then .always else .never, input)
  | .negation, input => (read input).map fun (child, input) => (.negation child, input)
  | .combination all, input => (readWord32 input).bind fun (count, input) =>
    (readTrees read count input).map fun (children, input) =>
      (if all then .conjunction children else .disjunction children, input)
  | .addresses side, input => (readWord32 input).bind fun (count, input) =>
    (parseAddresses count input).map fun (keys, input) => (.addresses side keys, input)
  | .ports side, input => (cut 2 input).bind fun (count, input) =>
    (parsePorts (bigEndian count) input).map fun (keys, input) =>
      (.ports side (keys.map portOf), input)
  | .differential side, input =>
    (uplinkParseString input).map fun (name, input) => (.differential side name [], input)
  | .range side, input => readRange side input

/-- The fuel bounds the depth of the tree. -/
def readTree : Nat → Bytes → Option (FilterTree × Bytes)
  | 0, _ => none
  | fuel + 1, input => (parseByte input).bind fun (code, input) =>
    (Shape.ofCode code).bind fun shape => readShape (readTree fuel) shape input

/-- The parsed filter is the compiled tree. -/
def compiled (store : Nat) (read : FilterTree × Bytes) : Parse Filter :=
  ⟨compile read.1 store, read.2, store + read.1.contents.length⟩

variable {fuel : Nat}

/-- The loop of the parser compiles the trees that are read. -/
theorem parseSubs_readTrees
    (one : ∀ input store, parseOne fuel input store = (readTree fuel input).map (compiled store))
    (count : Nat) (input : Bytes) (store : Nat) :
    parseSubs (parseOne fuel) count input store =
      (readTrees (readTree fuel) count input).map fun (trees, rest) =>
        ⟨compileAll trees store, rest, store + (allContents trees).length⟩ := by
  induction count generalizing input store with
  | zero => rfl
  | succ count ih =>
    rw [parseSubs, readTrees, one]
    rcases readTree fuel input with _ | ⟨tree, input⟩
    · rfl
    · simp only [map_some, bind_some, compiled, ih]
      rcases readTrees (readTree fuel) count input with _ | ⟨trees, input⟩
      · rfl
      · simp [compileAll, allContents, Nat.add_assoc]

variable {input rest : Bytes} {count : Nat} {keys : List Bytes}

/-- Each key of a port has two bytes. -/
theorem parsePorts_length (parsed : parsePorts count input = some (keys, rest)) :
    ∀ key ∈ keys, key.length = 2 := by
  induction count generalizing input keys with
  | zero =>
    cases parsed
    simp
  | succ count ih =>
    rw [parsePorts, bind_eq_some_iff] at parsed
    obtain ⟨⟨key, later⟩, cuts, parsed⟩ := parsed
    rw [map_eq_some_iff] at parsed
    obtain ⟨⟨others, last⟩, next, same⟩ := parsed
    cases same
    exact forall_mem_cons.mpr ⟨(cut_eq_some cuts).1, ih next⟩

theorem bigEndian_lt16 {word : Bytes} (size : word.length = 2) : bigEndian word < 2 ^ 16 := by
  obtain ⟨high, low, rfl⟩ := length_eq_two.mp size
  have first := high.toNat_lt
  have second := low.toNat_lt
  simp only [bigEndian, foldl_cons, foldl_nil]
  omega

theorem word16_portOf {key : Bytes} (size : key.length = 2) : word16 (portOf key).toNat = key := by
  obtain ⟨high, low, rfl⟩ := length_eq_two.mp size
  have first := high.toNat_lt
  have second := low.toNat_lt
  simp only [word16, portOf, bigEndian, foldl_cons, foldl_nil, UInt16.toNat_ofNat', List.cons.injEq,
    ← UInt8.toNat_inj, Nat.toUInt8_eq, UInt8.toNat_ofNat', and_true, Nat.reducePow]
  omega

/-- The parser of a range compiles the range that is read. -/
theorem parseRange_readRange (side : Side) (family netmask : UInt8) (input : Bytes) (store : Nat) :
    leaf (parseRange side (family :: netmask :: input)) store =
      (readRange side (family :: netmask :: input)).map (compiled store) := by
  have long : ¬ (family :: netmask :: input).length < 2 := by simp
  rw [parseRange, if_neg long, readRange]
  simp only [parseByte, bind_some]
  by_cases wide : (if (family == 6) = true then 16 else 4) < (netmask.toNat + 7) / 8
  · rw [if_pos wide, if_pos wide]
    rfl
  · rw [if_neg wide, if_neg wide]
    rcases cut ((netmask.toNat + 7) / 8) input with _ | ⟨bytes, input⟩
    · rfl
    · dsimp only [bind_some]
      split <;> rfl

/-- The parser reads a tree and compiles it. -/
theorem parseOne_readTree (fuel : Nat) (input : Bytes) (store : Nat) :
    parseOne fuel input store = (readTree fuel input).map (compiled store) := by
  induction fuel generalizing input store with
  | zero => rfl
  | succ fuel ih =>
    cases input with
    | nil => rfl
    | cons code input =>
      rw [parseOne_cons, readTree, parseByte, bind_some]
      dsimp only
      cases Shape.ofCode code with
      | none => rfl
      | some shape =>
        rw [bind_some, bind_some]
        cases shape with
        | constant value => cases value <;> rfl
        | negation =>
          rw [parseShape, readShape, ih]
          cases readTree fuel input <;> rfl
        | combination all =>
          rw [parseShape, readShape, parseManySubs]
          rcases readWord32 input with _ | ⟨count, input⟩
          · rfl
          · dsimp only [bind_some]
            rw [parseSubs_readTrees ih]
            rcases readTrees (readTree fuel) count input with _ | ⟨trees, input⟩
            · rfl
            · cases all <;> rfl
        | addresses side =>
          rw [parseShape, readShape, parseAddressMatch]
          rcases readWord32 input with _ | ⟨count, input⟩
          · rfl
          · dsimp only [bind_some]
            cases parseAddresses count input <;> rfl
        | ports side =>
          rw [parseShape, readShape, parsePortMatch]
          rcases cut 2 input with _ | ⟨count, input⟩
          · rfl
          · dsimp only [bind_some]
            rcases parsed : parsePorts (bigEndian count) input with _ | ⟨keys, input⟩
            · rfl
            · have same : keys.map ((fun port => word16 port.toNat) ∘ portOf) = keys :=
                (map_congr_left fun key member =>
                  word16_portOf (parsePorts_length parsed key member)).trans (List.map_id keys)
              simp [leaf, compiled, compile, FilterTree.contents, same]
        | differential side =>
          rw [parseShape, readShape, parseDifferential]
          cases uplinkParseString input <;> rfl
        | range side =>
          rw [parseShape, readShape]
          rcases input with _ | ⟨family, _ | ⟨netmask, input⟩⟩
          · rfl
          · rfl
          · exact parseRange_readRange side family netmask input store

/-- The code chooses how the rest is read. -/
theorem readTree_shape (shape : Shape) (input : Bytes) :
    readTree (fuel + 1) (shape.code :: input) = readShape (readTree fuel) shape input := by
  rw [readTree, parseByte, bind_some]
  dsimp only
  rw [Shape.ofCode_code, bind_some]

theorem portOf_word16 (port : UInt16) : portOf (word16 port.toNat) = port := by
  rw [portOf, bigEndian_word16 port.toNat_lt, UInt16.ofNat_toNat]

/-- What is written for a tree is read as the tree. -/
def ReadsBack (tree : FilterTree) : Prop :=
  ∀ written, tree.Writes written → ∀ fuel rest, tree.depth ≤ fuel →
    readTree fuel (written ++ rest) = some (tree, rest)

variable {children : List FilterTree}

/-- Written trees are read back with the bytes behind them. -/
theorem readTrees_writes (reads : ∀ child ∈ children, ReadsBack child) {written : Bytes}
    (writes : WritesAll children written) (rest : Bytes) (enough : allDepth children ≤ fuel) :
    readTrees (readTree fuel) children.length (written ++ rest) = some (children, rest) := by
  induction children generalizing written with
  | nil =>
    cases writes
    rfl
  | cons child children ih =>
    obtain ⟨first, later, one, others, rfl⟩ := writes
    rw [forall_mem_cons] at reads
    rw [allDepth] at enough
    have start := reads.1 first one fuel (later ++ rest) (le_trans (Nat.le_max_left _ _) enough)
    have next := ih reads.2 others (le_trans (Nat.le_max_right _ _) enough)
    rw [append_assoc, length_cons, readTrees, start, bind_some]
    dsimp only
    rw [next, map_some]

/-- A written combination is read back. -/
theorem readTree_combination (all : Bool) (reads : ∀ child ∈ children, ReadsBack child)
    {inner : Bytes} (writes : WritesAll children inner) (few : children.length < 2 ^ 32)
    (rest : Bytes) (enough : allDepth children ≤ fuel) :
    readTree (fuel + 1) ((Shape.combination all).code :: (word32 children.length ++ inner) ++ rest) =
      some (if all then .conjunction children else .disjunction children, rest) := by
  rw [cons_append, readTree_shape, readShape, append_assoc, readWord32_append _ few]
  simp only [bind_some, readTrees_writes reads writes rest enough, map_some]

/-- Every written tree is read back. -/
theorem readTree_writes (tree : FilterTree) (loose : tree.Loose) : ReadsBack tree := by
  induction tree using tree_induction with
  | always =>
    rintro _ rfl fuel rest enough
    obtain ⟨fuel, rfl⟩ := succ_of_depth enough
    exact readTree_shape (.constant true) rest
  | never =>
    rintro _ rfl fuel rest enough
    obtain ⟨fuel, rfl⟩ := succ_of_depth enough
    exact readTree_shape (.constant false) rest
  | negation child ih =>
    rintro _ ⟨inner, writes, rfl⟩ fuel rest enough
    obtain ⟨fuel, rfl⟩ := succ_of_depth enough
    have sub := ih loose.2 inner writes fuel rest (Nat.le_of_succ_le_succ enough)
    exact (readTree_shape .negation (inner ++ rest)).trans (by rw [readShape, sub, map_some])
  | conjunction children ih =>
    rintro _ ⟨inner, writes, rfl⟩ fuel rest enough
    obtain ⟨fuel, rfl⟩ := succ_of_depth enough
    have every := (everywhereAll_iff LooseNode children).mp loose.2
    exact readTree_combination true
      (fun child member => ih child member (every child member)) writes
      loose.1 rest (Nat.le_of_succ_le_succ enough)
  | disjunction children ih =>
    rintro _ ⟨inner, writes, rfl⟩ fuel rest enough
    obtain ⟨fuel, rfl⟩ := succ_of_depth enough
    have every := (everywhereAll_iff LooseNode children).mp loose.2
    exact readTree_combination false
      (fun child member => ih child member (every child member)) writes
      loose.1 rest (Nat.le_of_succ_le_succ enough)
  | addresses side list =>
    rintro _ rfl fuel rest enough
    obtain ⟨fuel, rfl⟩ := succ_of_depth enough
    rw [encode, cons_append]
    refine (readTree_shape (.addresses side) _).trans ?_
    rw [readShape, append_assoc, readWord32_append _ loose.1]
    simp only [bind_some, parseAddresses_encode list rest loose.2, map_some]
  | ports side list =>
    rintro _ rfl fuel rest enough
    obtain ⟨fuel, rfl⟩ := succ_of_depth enough
    have size : (word16 list.length).length = 2 := rfl
    have back : (list.map fun port => word16 port.toNat).map portOf = list := by
      rw [List.map_map]
      exact (map_congr_left fun port _ => portOf_word16 port).trans (List.map_id list)
    rw [encode, cons_append]
    refine (readTree_shape (.ports side) _).trans ?_
    rw [readShape, append_assoc, cut_append _ size]
    simp only [bind_some, bigEndian_word16 loose, parsePorts_encode list rest, map_some, back]
  | differential side name content =>
    rintro _ rfl fuel rest enough
    obtain ⟨fuel, rfl⟩ := succ_of_depth enough
    obtain ⟨few, rfl⟩ := loose
    refine (readTree_shape (.differential side) (renderString name ++ rest)).trans ?_
    rw [readShape, uplinkParseString_append rest few, map_some]
  | range side v6 netmask bytes =>
    rintro _ ⟨family, rfl, rfl⟩ fuel rest enough
    obtain ⟨fuel, rfl⟩ := succ_of_depth enough
    obtain ⟨positive, few, size⟩ := loose
    refine (readTree_shape (.range side) (family :: netmask.toUInt8 :: (bytes ++ rest))).trans ?_
    have bound : netmask < 256 := by
      split at few <;> omega
    have small : netmask.toUInt8.toNat = netmask := by
      rw [Nat.toUInt8_eq, UInt8.toNat_ofNat', Nat.mod_eq_of_lt bound]
    have nonzero : netmask.toUInt8 ≠ 0 := by
      intro zero
      rw [zero] at small
      exact absurd small.symm (Nat.pos_iff_ne_zero.mp positive)
    have fits : ¬ (if (family == 6) = true then 16 else 4) < (netmask + 7) / 8 := by
      split at few <;> rename_i wide <;> simp only [wide] <;> simp <;> omega
    rw [readShape, readRange, small, if_neg fits, cut_append rest size, bind_some]
    dsimp only
    rw [if_neg nonzero]

theorem readWord32_eq_some (read : readWord32 input = some (count, rest)) :
    count < 2 ^ 32 ∧ input = word32 count ++ rest := by
  rw [readWord32, map_eq_some_iff] at read
  obtain ⟨⟨front, later⟩, cuts, same⟩ := read
  cases same
  obtain ⟨size, whole⟩ := cut_eq_some cuts
  exact ⟨bigEndian_lt size, by rw [word32_bigEndian size, whole]⟩

/-- The addresses that are parsed were written in front of the rest. -/
theorem parseAddresses_eq_some (parsed : parseAddresses count input = some (keys, rest)) :
    keys.length = count ∧ (∀ key ∈ keys, key.length < 2 ^ 8) ∧
      input = keys.flatMap (fun key => key.length.toUInt8 :: key) ++ rest := by
  induction count generalizing input keys with
  | zero =>
    cases parsed
    simp
  | succ count ih =>
    rw [parseAddresses, bind_eq_some_iff] at parsed
    obtain ⟨⟨size, tail⟩, byte, parsed⟩ := parsed
    cases input with
    | nil => cases byte
    | cons first input =>
      cases byte
      rw [bind_eq_some_iff] at parsed
      obtain ⟨⟨key, later⟩, cuts, parsed⟩ := parsed
      rw [map_eq_some_iff] at parsed
      obtain ⟨⟨others, last⟩, next, same⟩ := parsed
      cases same
      obtain ⟨length, rfl⟩ := cut_eq_some cuts
      obtain ⟨many, short, rfl⟩ := ih next
      have small := size.toNat_lt
      refine ⟨by simp [many], forall_mem_cons.mpr ⟨by omega, short⟩, ?_⟩
      simp [length]

/-- The ports that are parsed were written in front of the rest. -/
theorem parsePorts_eq_some (parsed : parsePorts count input = some (keys, rest)) :
    keys.length = count ∧
      input = (keys.map portOf).flatMap (fun port => word16 port.toNat) ++ rest := by
  induction count generalizing input keys with
  | zero =>
    cases parsed
    simp
  | succ count ih =>
    rw [parsePorts, bind_eq_some_iff] at parsed
    obtain ⟨⟨key, later⟩, cuts, parsed⟩ := parsed
    rw [map_eq_some_iff] at parsed
    obtain ⟨⟨others, last⟩, next, same⟩ := parsed
    cases same
    obtain ⟨length, rfl⟩ := cut_eq_some cuts
    obtain ⟨many, rfl⟩ := ih next
    refine ⟨by simp [many], ?_⟩
    simp [word16_portOf length]

theorem word16_bigEndian {word : Bytes} (size : word.length = 2) : word16 (bigEndian word) = word := by
  have back := word16_portOf size
  have small := bigEndian_lt16 size
  rwa [portOf, UInt16.toNat_ofNat', Nat.mod_eq_of_lt small] at back

/-- The string that is parsed was written in front of the rest. -/
theorem uplinkParseString_eq_some {name : Bytes}
    (parsed : uplinkParseString input = some (name, rest)) :
    name.length < 2 ^ 32 ∧ input = renderString name ++ rest := by
  rw [uplinkParseString] at parsed
  split at parsed
  · cases parsed
  rename_i long
  have size : (input.take lengthSize).length = 4 := by
    rw [length_take]
    simp only [lengthSize] at long ⊢
    omega
  have small := bigEndian_lt size
  dsimp only at parsed
  split at parsed
  · cases parsed
  rename_i whole
  cases parsed
  have length : ((input.drop lengthSize).take (bigEndian (input.take lengthSize))).length =
      bigEndian (input.take lengthSize) := by
    rw [length_take, length_drop]
    omega
  refine ⟨by omega, ?_⟩
  rw [renderString, length, word32_bigEndian size, append_assoc,
    Nat.add_comm (bigEndian _) lengthSize, ← drop_drop, take_append_drop,
    take_append_drop]

/-- What is read was written for the tree. -/
def Written (tree : FilterTree) (input rest : Bytes) : Prop :=
  ∃ written, tree.Writes written ∧ tree.Loose ∧ input = written ++ rest

/-- Trees that are read were written in front of the rest. -/
theorem readTrees_written {read : Bytes → Option (FilterTree × Bytes)}
    (one : ∀ input tree rest, read input = some (tree, rest) → Written tree input rest)
    {trees : List FilterTree} (parsed : readTrees read count input = some (trees, rest)) :
    trees.length = count ∧ ∃ written, WritesAll trees written ∧ EverywhereAll LooseNode trees ∧
      input = written ++ rest := by
  induction count generalizing input trees with
  | zero =>
    cases parsed
    exact ⟨rfl, [], rfl, trivial, rfl⟩
  | succ count ih =>
    rw [readTrees, bind_eq_some_iff] at parsed
    obtain ⟨⟨tree, later⟩, first, parsed⟩ := parsed
    rw [map_eq_some_iff] at parsed
    obtain ⟨⟨others, last⟩, next, same⟩ := parsed
    cases same
    obtain ⟨written, writes, loose, rfl⟩ := one input tree later first
    obtain ⟨many, behind, writesAll, looseAll, rfl⟩ := ih next
    exact ⟨by simp [many], written ++ behind, ⟨written, behind, writes, writesAll, rfl⟩,
      ⟨loose, looseAll⟩, by rw [append_assoc]⟩

variable {tree : FilterTree}

theorem readRange_written {side : Side} (parsed : readRange side input = some (tree, rest)) :
    Written tree (rangeCode side :: input) rest := by
  rcases input with _ | ⟨family, _ | ⟨netmask, input⟩⟩
  · cases parsed
  · cases parsed
  rw [readRange, ite_none_left_eq_some, bind_eq_some_iff] at parsed
  obtain ⟨fits, ⟨bytes, later⟩, cuts, parsed⟩ := parsed
  obtain ⟨nonzero, same⟩ := ite_none_left_eq_some.mp parsed
  cases same
  obtain ⟨size, rfl⟩ := cut_eq_some cuts
  have positive : 0 < netmask.toNat := by
    rw [Nat.pos_iff_ne_zero]
    intro zero
    exact nonzero (UInt8.toNat_inj.mp zero)
  have back : netmask.toNat.toUInt8 = netmask := UInt8.ofNat_toNat
  refine ⟨rangeCode side :: family :: netmask :: bytes, ⟨family, rfl, by rw [back]⟩,
    ⟨positive, ?_, size⟩, rfl⟩
  cases wide : family == 6 <;> simp [wide] at fits ⊢ <;> omega

/-- What is read behind a code was written there. -/
theorem readShape_written {read : Bytes → Option (FilterTree × Bytes)}
    (one : ∀ input tree rest, read input = some (tree, rest) → Written tree input rest)
    (shape : Shape) (parsed : readShape read shape input = some (tree, rest)) :
    Written tree (shape.code :: input) rest := by
  cases shape with
  | constant value =>
    cases value <;> cases parsed
    · exact ⟨[letter 'F'], rfl, trivial, rfl⟩
    · exact ⟨[letter 'T'], rfl, trivial, rfl⟩
  | negation =>
    rw [readShape, map_eq_some_iff] at parsed
    obtain ⟨⟨child, later⟩, sub, same⟩ := parsed
    cases same
    obtain ⟨written, writes, loose, rfl⟩ := one input child rest sub
    exact ⟨letter '!' :: written, ⟨written, writes, rfl⟩, ⟨trivial, loose⟩, rfl⟩
  | combination all =>
    rw [readShape, bind_eq_some_iff] at parsed
    obtain ⟨⟨count, later⟩, word, parsed⟩ := parsed
    rw [map_eq_some_iff] at parsed
    obtain ⟨⟨children, last⟩, subs, same⟩ := parsed
    obtain ⟨small, rfl⟩ := readWord32_eq_some word
    obtain ⟨rfl, written, writes, loose, rfl⟩ := readTrees_written one subs
    cases all <;> cases same
    · exact ⟨letter '|' :: (word32 children.length ++ written), ⟨written, writes, rfl⟩,
        ⟨small, loose⟩, by simp [Shape.code]⟩
    · exact ⟨letter '&' :: (word32 children.length ++ written), ⟨written, writes, rfl⟩,
        ⟨small, loose⟩, by simp [Shape.code]⟩
  | addresses side =>
    rw [readShape, bind_eq_some_iff] at parsed
    obtain ⟨⟨count, later⟩, word, parsed⟩ := parsed
    rw [map_eq_some_iff] at parsed
    obtain ⟨⟨keys, last⟩, listed, same⟩ := parsed
    cases same
    obtain ⟨small, rfl⟩ := readWord32_eq_some word
    obtain ⟨rfl, short, rfl⟩ := parseAddresses_eq_some listed
    exact ⟨(FilterTree.addresses side keys).encode, rfl, ⟨small, short⟩,
      by simp [Shape.code, encode]⟩
  | ports side =>
    rw [readShape, bind_eq_some_iff] at parsed
    obtain ⟨⟨count, later⟩, cuts, parsed⟩ := parsed
    rw [map_eq_some_iff] at parsed
    obtain ⟨⟨keys, last⟩, listed, same⟩ := parsed
    cases same
    obtain ⟨size, rfl⟩ := cut_eq_some cuts
    obtain ⟨many, rfl⟩ := parsePorts_eq_some listed
    have word := word16_bigEndian size
    have few := bigEndian_lt16 size
    refine ⟨(FilterTree.ports side (keys.map portOf)).encode, rfl, ?_, ?_⟩
    · show (keys.map portOf).length < 2 ^ 16
      rw [length_map, many]
      exact few
    · simp [Shape.code, encode, many, word]
  | differential side =>
    rw [readShape, map_eq_some_iff] at parsed
    obtain ⟨⟨name, later⟩, string, same⟩ := parsed
    cases same
    obtain ⟨few, rfl⟩ := uplinkParseString_eq_some string
    exact ⟨differentialCode side :: renderString name, rfl, ⟨few, rfl⟩, rfl⟩
  | range side => exact readRange_written parsed

/-- A tree that is read was written in front of the rest. -/
theorem readTree_written (parsed : readTree fuel input = some (tree, rest)) :
    Written tree input rest := by
  induction fuel generalizing input rest tree with
  | zero => cases parsed
  | succ fuel ih =>
    cases input with
    | nil => cases parsed
    | cons code input =>
      rw [readTree, parseByte, bind_some] at parsed
      dsimp only at parsed
      rw [bind_eq_some_iff] at parsed
      obtain ⟨shape, known, parsed⟩ := parsed
      rw [← Shape.code_of_ofCode known]
      exact readShape_written (fun _ _ _ => ih) shape parsed

/-- The children are no deeper than their text is long. -/
theorem allDepth_le_written
    (small : ∀ child ∈ children, ∀ written, child.Writes written → child.depth ≤ written.length)
    {written : Bytes} (writes : WritesAll children written) :
    allDepth children ≤ written.length := by
  induction children generalizing written with
  | nil => exact Nat.zero_le _
  | cons child children ih =>
    obtain ⟨first, rest, one, others, rfl⟩ := writes
    rw [forall_mem_cons] at small
    have start := small.1 first one
    have later := ih small.2 others
    rw [allDepth, length_append]
    omega

/-- Each level of a tree has a byte of its own. -/
theorem depth_le_written (tree : FilterTree) :
    ∀ written, tree.Writes written → tree.depth ≤ written.length := by
  induction tree using tree_induction with
  | negation child ih =>
    rintro _ ⟨inner, writes, rfl⟩
    exact Nat.succ_le_succ (ih inner writes)
  | conjunction children ih =>
    rintro _ ⟨inner, writes, rfl⟩
    have subs := allDepth_le_written ih writes
    rw [depth, length_cons, length_append]
    omega
  | disjunction children ih =>
    rintro _ ⟨inner, writes, rfl⟩
    have subs := allDepth_le_written ih writes
    rw [depth, length_cons, length_append]
    omega
  | always =>
    rintro _ rfl
    rfl
  | never =>
    rintro _ rfl
    rfl
  | addresses side list =>
    rintro _ rfl
    exact depth_le_length _
  | ports side list =>
    rintro _ rfl
    exact depth_le_length _
  | differential side name content =>
    rintro _ rfl
    exact depth_le_length _
  | range side v6 netmask bytes =>
    rintro _ ⟨family, _, rfl⟩
    exact Nat.succ_le_succ (Nat.zero_le _)

end Readers

end Ucollect.Flow
