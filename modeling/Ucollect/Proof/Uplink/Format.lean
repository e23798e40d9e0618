import Ucollect.Construction.Core.UplinkFormat

/-
This file proves that values survive the rendering and the parsing with the same format.
-/

namespace Ucollect.Core
open Library List
open MemPool (Machine pageSize)

/-- These bytes stand for the argument in a message. -/
def Argument.encoding : Argument → Bytes
  | .string bytes => word32 bytes.length ++ bytes
  | .number value => word32 value.toNat
  | .bool value => [if value then 1 else 0]
  | .char value => [value]

/-- This is the value that the other side reads. -/
def Argument.parsed : Argument → ParsedValue
  | .string bytes => .string (bytes ++ [0]) bytes.length
  | .number value => .number value
  | .bool value => .bool value
  | .char value => .char value

def Argument.length : Argument → Nat
  | .string bytes => bytes.length
  | _ => 0

/-- The rendering has the size of its values, and parsing it leaves what follows. Neither depends on
what is available in the pools. -/
def RoundTrips (machine : Machine) (extraSpace : Nat) (format : List Char)
    (arguments : List Argument) : Prop :=
  ∃ rendered : Bytes,
    (∀ available, uplinkRenderAlloc machine available extraSpace format arguments =
      .ok (rendered, rendered.length + extraSpace)) ∧
    ∀ (pools : List Nat) (trailing : Bytes), format.count 's' ≤ pools.length →
      uplinkParse machine format pools (rendered ++ trailing) =
        .ok (arguments.map Argument.parsed, trailing)

def encodings (arguments : List Argument) : Bytes := arguments.flatMap Argument.encoding

@[simp] theorem encodings_cons (argument : Argument) (arguments : List Argument) :
    encodings (argument :: arguments) = argument.encoding ++ encodings arguments := rfl

theorem put_put (output : Output) (first second : Bytes) :
    (output.put first >>= fun output => output.put second) = output.put (first ++ second) := by
  simp only [Output.put, length_append]
  by_cases small : output.room < first.length
  · have whole : output.room < first.length + second.length := by omega
    rw [if_pos small, if_pos whole]
    rfl
  · rw [if_neg small]
    change (if output.room - first.length < second.length then _ else _) = _
    by_cases rest : output.room - first.length < second.length
    · rw [if_pos rest, if_pos (by omega)]
    · rw [if_neg rest, if_neg (by omega), append_assoc, Nat.sub_sub]

theorem renderCommand_matching (argument : Argument) (output : Output) :
    renderCommand argument.command argument output = output.put argument.encoding := by
  cases argument with
  | string bytes => exact put_put output _ bytes
  | number value => rfl
  | bool value => rfl
  | char value => rfl

theorem commandSize_matching (argument : Argument) :
    commandSize argument.command argument = .ok argument.encoding.length := by
  cases argument with
  | string bytes =>
    simp only [commandSize, Argument.command, Argument.encoding, length_append, if_true]
    rw [Nat.add_comm]
    rfl
  | number value => rfl
  | bool value => rfl
  | char value => rfl

theorem vUplinkRender_matching (arguments : List Argument) (output : Output) :
    vUplinkRender (arguments.map Argument.command) arguments output =
      output.put (encodings arguments) := by
  induction arguments generalizing output with
  | nil =>
    simp only [map_nil, vUplinkRender, Output.put, encodings, flatMap_nil, length_nil,
      Nat.not_lt_zero, if_false, append_nil, Nat.sub_zero]
  | cons argument arguments ih =>
    rw [map_cons, vUplinkRender, renderCommand_matching, encodings_cons, ← put_put]
    congr 1
    funext output
    exact ih output

theorem neededSpace_matching (machine : Machine) (arguments : List Argument) {length : Nat}
    (small : length < machine.limit) :
    neededSpace machine (arguments.map Argument.command) arguments length =
      .ok ((length + (encodings arguments).length) % machine.limit) := by
  induction arguments generalizing length with
  | nil =>
    rw [map_nil, neededSpace, encodings, flatMap_nil, length_nil, Nat.add_zero,
      Nat.mod_eq_of_lt small]
  | cons argument arguments ih =>
    rw [map_cons, neededSpace, commandSize_matching]
    change neededSpace machine _ _ ((length + argument.encoding.length) % machine.limit) = _
    rw [ih (Nat.mod_lt _ (by cases machine <;> decide)), Nat.mod_add_mod, encodings_cons,
      length_append, Nat.add_assoc]

theorem carve_enough (machine : Machine) {available size : Nat} (enough : size ≤ available) :
    ∃ rest, carve machine available size = some rest :=
  ⟨_, if_neg (Nat.not_lt.mpr enough)⟩

/-- A block whose pages have a size below the limit is found in any pool. -/
theorem memPoolAlloc_fits (machine : Machine) (available : Nat) {size : Nat}
    (fits : size + machine.header + pageSize ≤ machine.limit) :
    ∃ rest, memPoolAlloc machine available size = .ok rest := by
  rw [memPoolAlloc]
  cases carved : carve machine available size with
  | some rest => exact ⟨rest, rfl⟩
  | none =>
    have header : 0 < machine.header := by cases machine <;> decide
    have whole : (size + machine.header + pageSize - 1) % machine.limit =
        size + machine.header + pageSize - 1 := Nat.mod_eq_of_lt (by omega)
    have page : size + machine.header ≤
        (size + machine.header + pageSize - 1) / pageSize * pageSize := by
      rw [pageSize]
      omega
    dsimp only
    rw [whole, if_neg (by omega)]
    obtain ⟨rest, found⟩ := @carve_enough machine _ size (Nat.le_sub_of_add_le page)
    rw [found]
    exact ⟨_, rfl⟩

/-- The size of the pages wraps for a block near the limit, and no page of it is left in the pool. -/
theorem memPoolAlloc_wraps (machine : Machine) {size : Nat} (below : size < machine.limit)
    (large : machine.limit < size + machine.header + pageSize) :
    memPoolAlloc machine 0 size = .error .sanity := by
  have bounds : 3 * pageSize < machine.limit ∧ machine.header ≤ pageSize := by
    cases machine <;> decide
  have none : carve machine 0 size = none := if_pos (by omega)
  have wrapped : (size + machine.header + pageSize - 1) % machine.limit =
      size + machine.header + pageSize - 1 - machine.limit := by
    rw [Nat.mod_eq_sub_mod (by omega), Nat.mod_eq_of_lt (by omega)]
  have page := Nat.div_mul_le_self
    (size + machine.header + pageSize - 1 - machine.limit) pageSize
  have short : carve machine ((size + machine.header + pageSize - 1 - machine.limit) / pageSize *
      pageSize - machine.header) size = .none := if_pos (by omega)
  rw [memPoolAlloc, none]
  dsimp only
  rw [wrapped, short, ite_self]

/-- The size of the buffer, the header of its pages and a page fit into a `size_t`. -/
def FitsPages (machine : Machine) (extraSpace : Nat) (arguments : List Argument) : Prop :=
  (encodings arguments).length + extraSpace + machine.header + pageSize ≤ machine.limit

variable {machine : Machine} {extraSpace : Nat} {arguments : List Argument}

theorem uplinkRenderAlloc_fits (fits : FitsPages machine extraSpace arguments) (available : Nat) :
    uplinkRenderAlloc machine available extraSpace (arguments.map Argument.command) arguments =
      .ok (encodings arguments, (encodings arguments).length + extraSpace) := by
  rw [FitsPages] at fits
  have positive : 0 < pageSize := by decide
  obtain ⟨rest, allocated⟩ := memPoolAlloc_fits machine available fits
  rw [uplinkRenderAlloc, neededSpace_matching machine arguments (by omega), Nat.add_comm extraSpace,
    Nat.mod_eq_of_lt (by omega)]
  change (memPoolAlloc _ _ _ >>= fun _ => _) = _
  rw [allocated]
  change (vUplinkRender _ _ _ >>= _) = _
  rw [vUplinkRender_matching, Output.put, if_neg (by simp only; omega)]
  change (if _ - _ = extraSpace then _ else _) = _
  rw [if_pos (Nat.add_sub_cancel_left _ _)]
  rfl

/-- A size that overflows leaves too little room for the values. -/
theorem uplinkRenderAlloc_fails (small : extraSpace < machine.limit)
    (large : ¬ FitsPages machine extraSpace arguments) :
    uplinkRenderAlloc machine 0 extraSpace (arguments.map Argument.command) arguments =
      .error .sanity := by
  rw [FitsPages] at large
  rw [uplinkRenderAlloc, neededSpace_matching machine arguments small]
  change (memPoolAlloc _ _ _ >>= fun _ => _) = _
  generalize size : (extraSpace + (encodings arguments).length) % machine.limit = length
  have below : length < machine.limit := size ▸ Nat.mod_lt _ (by omega)
  by_cases near : machine.limit < length + machine.header + pageSize
  · rw [memPoolAlloc_wraps machine below near]
    rfl
  · obtain ⟨rest, allocated⟩ := memPoolAlloc_fits machine 0 (Nat.le_of_not_lt near)
    have short : length < (encodings arguments).length := by
      by_cases huge : machine.limit ≤ (encodings arguments).length
      · omega
      · by_cases whole : extraSpace + (encodings arguments).length < machine.limit
        · rw [Nat.mod_eq_of_lt whole] at size
          omega
        · rw [Nat.mod_eq_sub_mod (by omega), Nat.mod_eq_of_lt (by omega)] at size
          omega
    rw [allocated]
    change (vUplinkRender _ _ _ >>= _) = _
    rw [vUplinkRender_matching, Output.put, if_pos short]
    rfl

/-- The longest string asks for no memory at all. -/
theorem storeString_eq (available : Nat) {string : Bytes}
    (fits : string.length + 1 + machine.header + pageSize ≤ machine.limit)
    (short : string.length < 2 ^ 32) :
    storeString machine available string =
      if string.length + 1 < 2 ^ 32 then .ok (.string (string ++ [0]) string.length)
      else .error .overrun := by
  have size : (string.length + 1) % 2 ^ 32 ≤ string.length + 1 := Nat.mod_le _ _
  obtain ⟨rest, allocated⟩ := @memPoolAlloc_fits machine available
    ((string.length + 1) % 2 ^ 32) (by omega)
  simp only [storeString, length_append, length_singleton]
  rw [allocated]
  change (if (string.length + 1) % 2 ^ 32 < string.length + 1 then _ else _) = _
  by_cases fits : string.length + 1 < 2 ^ 32
  · rw [Nat.mod_eq_of_lt fits, if_neg (lt_irrefl _), if_pos fits]
  · have exact : string.length + 1 = 2 ^ 32 := by omega
    rw [if_neg fits, exact, Nat.mod_self, if_pos (by decide)]

theorem parseCommand_matching (argument : Argument) (rest : Bytes) {pools : List Nat}
    (enough : [argument.command].count 's' ≤ pools.length)
    (fits : argument.length + 1 + machine.header + pageSize ≤ machine.limit)
    (short : argument.length < 2 ^ 32) :
    parseCommand machine argument.command pools (argument.encoding ++ rest) =
      if argument.length + 1 < 2 ^ 32 then
        .ok (argument.parsed, pools.drop ([argument.command].count 's'), rest)
      else .error .overrun := by
  cases argument with
  | string bytes =>
    have short : bytes.length < 2 ^ 32 := short
    cases pools with
    | nil => cases enough
    | cons available pools =>
      simp only [parseCommand, Argument.command, Argument.encoding, append_assoc, if_true]
      rw [readWord32_append _ short]
      change (check (cut bytes.length (bytes ++ rest)) >>= _) = _
      rw [cut_append rest rfl]
      change (storeString machine available bytes >>= fun text =>
        Except.ok (text, pools, rest)) = if bytes.length + 1 < 2 ^ 32 then _ else _
      rw [storeString_eq available fits short]
      by_cases whole : bytes.length + 1 < 2 ^ 32
      · rw [if_pos whole, if_pos whole]
        rfl
      · rw [if_neg whole, if_neg whole]
        rfl
  | number value =>
    change (check (readWord32 (word32 value.toNat ++ rest)) >>= _) = _
    rw [readWord32_append rest value.toNat_lt]
    change Except.ok (ParsedValue.number (UInt32.ofNat value.toNat), pools, rest) = _
    rw [UInt32.ofNat_toNat]
    rfl
  | bool value => cases value <;> rfl
  | char value => rfl

theorem uplinkParse_matching {machine : Machine} (arguments : List Argument) (rest : Bytes)
    {pools : List Nat} (enough : (arguments.map Argument.command).count 's' ≤ pools.length)
    (fits : ∀ argument ∈ arguments,
      argument.length + 1 + machine.header + pageSize ≤ machine.limit)
    (short : ∀ argument ∈ arguments, argument.length < 2 ^ 32) :
    uplinkParse machine (arguments.map Argument.command) pools (encodings arguments ++ rest) =
      if ∀ argument ∈ arguments, argument.length + 1 < 2 ^ 32 then
        .ok (arguments.map Argument.parsed, rest)
      else .error .overrun := by
  induction arguments generalizing pools with
  | nil => rfl
  | cons argument arguments ih =>
    have counts : ((argument :: arguments).map Argument.command).count 's' =
        [argument.command].count 's' + (arguments.map Argument.command).count 's' := by
      rw [map_cons, ← singleton_append, count_append]
    rw [counts] at enough
    rw [map_cons, uplinkParse, encodings_cons, append_assoc,
      parseCommand_matching _ _ (by omega) (fits argument mem_cons_self)
        (short argument mem_cons_self)]
    by_cases whole : argument.length + 1 < 2 ^ 32
    · rw [if_pos whole]
      change (uplinkParse _ _ _ (encodings arguments ++ rest) >>= _) = _
      rw [ih (by rw [length_drop]; omega)
        (fun other member => fits other (mem_cons_of_mem _ member))
        fun other member => short other (mem_cons_of_mem _ member)]
      simp only [forall_mem_cons, whole, true_and]
      split <;> rfl
    · rw [if_neg whole, if_neg fun all => whole (all argument mem_cons_self)]
      rfl

theorem uplinkParseString_append {string : Bytes} (rest : Bytes)
    (small : string.length < 2 ^ 32) :
    uplinkParseString (renderString string ++ rest) = some (string, rest) := by
  have size : (word32 string.length).length = lengthSize := rfl
  have front : (renderString string ++ rest).take lengthSize = word32 string.length := by
    rw [renderString, append_assoc, take_left' size]
  have back : (renderString string ++ rest).drop lengthSize = string ++ rest := by
    rw [renderString, append_assoc, drop_left' size]
  have whole : (renderString string ++ rest).length =
      string.length + lengthSize + rest.length := by
    rw [renderString, append_assoc, length_append, length_append, size]
    omega
  simp only [uplinkParseString, front, bigEndian_word32 small, whole, Nat.add_comm _ lengthSize,
    ← drop_drop, back, take_left, drop_left]
  rw [if_neg (by omega), if_neg (by omega)]

/-- A string that fits into the rendered buffer also fits into the memory of the parser. -/
theorem FitsPages.string (fits : FitsPages machine extraSpace arguments) {argument : Argument}
    (member : argument ∈ arguments) :
    argument.length + 1 + machine.header + pageSize ≤ machine.limit := by
  rw [FitsPages] at fits
  have part : argument.encoding.length ≤ (encodings arguments).length := by
    rw [encodings, length_flatMap]
    exact single_le_sum (fun _ _ => Nat.zero_le _) _
      (List.mem_map.mpr ⟨argument, member, rfl⟩)
  have word (value : Nat) : (word32 value).length = lengthSize := rfl
  have bytes : argument.length + 1 ≤ argument.encoding.length := by
    cases argument with
    | string bytes =>
      simp only [Argument.length, Argument.encoding, length_append, word, lengthSize]
      omega
    | number value => simp [Argument.length, Argument.encoding, word, lengthSize]
    | bool value => simp [Argument.length, Argument.encoding]
    | char value => simp [Argument.length, Argument.encoding]
  omega

/-- The round trip needs a buffer whose pages have a size that a `size_t` holds, and no string of the
greatest length. -/
theorem uplinkRender_uplinkParse_iff (machine : Machine) (extraSpace : Nat)
    (format : List Char) (arguments : List Argument)
    (matching : arguments.map Argument.command = format)
    (space : extraSpace < machine.limit)
    (short : ∀ argument ∈ arguments, argument.length < 2 ^ 32) :
    RoundTrips machine extraSpace format arguments ↔
      (arguments.map fun argument => argument.encoding.length).sum + extraSpace +
          machine.header + pageSize ≤ machine.limit ∧
        ∀ argument ∈ arguments, argument.length ≠ 2 ^ 32 - 1 := by
  subst matching
  have size : (arguments.map fun argument => argument.encoding.length).sum =
      (encodings arguments).length := length_flatMap.symm
  rw [RoundTrips, size]
  constructor
  · rintro ⟨rendered, built, parsed⟩
    by_cases fits : FitsPages machine extraSpace arguments
    · have same : encodings arguments = rendered :=
        (Prod.mk.inj (Except.ok.inj ((uplinkRenderAlloc_fits fits 0).symm.trans (built 0)))).1
      have pools : (arguments.map Argument.command).count 's' ≤
          (List.replicate ((arguments.map Argument.command).count 's') 0).length :=
        le_of_eq length_replicate.symm
      have whole := parsed _ [] pools
      rw [← same, uplinkParse_matching arguments [] pools (fun _ member => fits.string member)
        short] at whole
      split at whole
      · next small =>
          exact ⟨fits, fun argument member => by have := small argument member; omega⟩
      · cases whole
    · have failed := built 0
      rw [uplinkRenderAlloc_fails space fits] at failed
      cases failed
  · rintro ⟨fits, small⟩
    have fits : FitsPages machine extraSpace arguments := fits
    have bounded : ∀ argument ∈ arguments, argument.length + 1 < 2 ^ 32 := by
      intro argument member
      have below := short argument member
      have other := small argument member
      omega
    refine ⟨encodings arguments, uplinkRenderAlloc_fits fits, fun pools trailing enough => ?_⟩
    rw [uplinkParse_matching arguments trailing enough (fun _ member => fits.string member) short,
      if_pos bounded]

theorem uplinkRender_uplinkParse_sample :
    RoundTrips .narrow 7 ['s', 'b', 'u', 'c', 's']
      [.string [104, 0, 255], .bool true, .number 0xFFFFFFFE, .char 200, .string []] := by
  refine (uplinkRender_uplinkParse_iff .narrow 7 _ _ (by rfl) ?_ ?_).mpr ⟨?_, ?_⟩
  · decide
  · decide
  · decide
  · decide

/-- This string has the greatest length that is less than 2^32. -/
def longestString : Bytes := List.replicate (2 ^ 32 - 1) 0

/-- The memory for the longest string is empty. -/
theorem uplinkParse_longestString :
    longestString.length < 2 ^ 32 ∧ ¬ RoundTrips .wide 0 ['s'] [.string longestString] := by
  have length : longestString.length = 2 ^ 32 - 1 := length_replicate
  have short : Argument.length (.string longestString) < 2 ^ 32 := by
    rw [Argument.length, length]
    decide
  have fits : FitsPages .wide 0 [.string longestString] := by
    have size : (encodings [.string longestString]).length = lengthSize + (2 ^ 32 - 1) := by
      simp only [encodings, flatMap_cons, flatMap_nil, Argument.encoding, append_nil, length_append,
        length]
      rfl
    rw [FitsPages, size]
    decide
  refine ⟨short, ?_⟩
  rintro ⟨rendered, built, parsed⟩
  have same : encodings [.string longestString] = rendered :=
    (Prod.mk.inj (Except.ok.inj ((uplinkRenderAlloc_fits fits 0).symm.trans (built 0)))).1
  have failed := @uplinkParse_matching .wide [.string longestString] [] [0] (by decide)
    (fun _ member => fits.string member) (by simpa using short)
  rw [← same] at parsed
  rw [map_singleton, Argument.command, parsed [0] [] (by decide), if_neg] at failed
  · cases failed
  · intro all
    have below := all _ mem_cons_self
    rw [Argument.length, length] at below
    omega

end Ucollect.Core
