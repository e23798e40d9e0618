import Ucollect.Proof.Sizes.Uplink

/-
This file proves when the sizes of a filter fit.
-/

namespace Ucollect.Sizes
open Library Core MemPool Flow List Option

mutual

/-- A trie takes the keys of each list of addresses or ports. -/
def takenFilter : Filter → Bool
  | .negation sub => takenFilter sub
  | .conjunction subfilters => takenFilters subfilters
  | .disjunction subfilters => takenFilters subfilters
  | .address _ keys => takes (trieAlloc Unit) keys
  | .port _ keys => takes (trieAlloc Unit) keys
  | .constant _ => true
  | .differential _ _ _ => true
  | .range _ _ _ _ => true

def takenFilters : List Filter → Bool
  | [] => true
  | filter :: filters => takenFilter filter && takenFilters filters

end

/-- A parsed filter counts when its keys are taken. -/
def keep (parsed : Option (Parse Filter)) : Option (Filter × Source) :=
  parsed.bind fun parsed =>
    if takenFilter parsed.value then some (parsed.value, ⟨parsed.rest, parsed.nextStore⟩) else none

def keepAll (parsed : Option (Parse (List Filter))) : Option (List Filter × Source) :=
  parsed.bind fun parsed =>
    if takenFilters parsed.value then some (parsed.value, ⟨parsed.rest, parsed.nextStore⟩) else none

/-- This is the plain parser with the tries. -/
def oneOf (fuel : Nat) (source : Source) : Option (Filter × Source) :=
  keep (Flow.parseOne fuel source.input source.store)

def subsOf (fuel count : Nat) (source : Source) : Option (List Filter × Source) :=
  keepAll (Flow.parseSubs (Flow.parseOne fuel) count source.input source.store)

section Fits

variable (machine : Machine)

/-- The filters fit up to the place where the parser stops. -/
def SubsFit (one : Source → Option (Filter × Source)) (fits : Source → Prop) : Nat → Source → Prop
  | 0, _ => True
  | left + 1, source => fits source ∧
      ∀ filter later, one source = some (filter, later) → SubsFit one fits left later

/-- The block for the filters fits, and the filters do. -/
def ManySubsFit (one : Source → Option (Filter × Source)) (fits : Source → Prop)
    (source : Source) : Prop :=
  ∀ count later, lift readWord32 source = some (count, later) →
    count * filterSize machine + machine.header + pageSize < machine.limit ∧
      SubsFit one fits count later

/-- Only the names of stores and the lists of filters have sizes that may not fit. -/
def BodyFits (one : Source → Option (Filter × Source)) (fits : Source → Prop) (code : UInt8)
    (source : Source) : Prop :=
  if code = letter '!' then fits source
  else if code = letter '&' ∨ code = letter '|' then ManySubsFit machine one fits source
  else if code = letter 'd' ∨ code = letter 'D' then StringFits machine source.input
  else True

def FilterFits : Nat → Source → Prop
  | 0, _ => True
  | fuel + 1, source => ∀ code later, lift parseByte source = some (code, later) →
      BodyFits machine (oneOf fuel) (FilterFits fuel) code later

end Fits

section Parsers

variable {machine : Machine} {message : Bytes}

theorem readKeys_addresses (count : Nat) (input : Bytes) :
    readKeys addressKey count input = parseAddresses count input := by
  induction count generalizing input with
  | zero => rfl
  | succ count ih =>
    rw [readKeys, addressKey, parseAddresses, bind_assoc]
    simp only [ih]

theorem readKeys_ports (count : Nat) (input : Bytes) :
    readKeys (cut 2) count input = parsePorts count input := by
  induction count generalizing input with
  | zero => rfl
  | succ count ih =>
    rw [readKeys, parsePorts]
    simp only [ih]

theorem tracks_parseListMatch {width : Nat} {parseKey : Trie Unit → Parser (Bytes × Trie Unit)}
    {readKey : Bytes → Option (Bytes × Bytes)}
    (each : ∀ trie, Tracks message (parseKey trie) (marked readKey trie) fun _ => True)
    (node : List Bytes → Filter) :
    Tracks message (parseListMatch machine message width parseKey node)
      (fun source => (lift (cut width) source).bind fun (count, source) =>
        (taken (readKeys readKey (bigEndian count)) (trieAlloc Unit) source).bind
          fun (keys, source) => some (node keys, source)) fun _ => True := by
  have keys : ∀ count : Bytes, Tracks message
      (allocTrie machine >>= fun trie =>
        parseKeys parseKey (bigEndian count) trie >>= fun keys => pure (node keys))
      (fun source => (taken (readKeys readKey (bigEndian count)) (trieAlloc Unit) source).bind
        fun (keys, source) => some (node keys, source)) _ := fun count =>
    Follows.fixed tracks_allocTrie (Follows.bind (tracks_parseKeys each (bigEndian count) _)
      fun keys => Follows.value (node keys))
  exact (Follows.bind (tracks_takeBytes width) keys).congr (fun _ _ _ _ => rfl) fun _ _ _ => by simp

theorem tracks_parseIpMatch (side : Side) :
    Tracks message (parseIpMatch machine message side)
      (fun source => keep (leaf (parseAddressMatch side source.input) source.store))
      fun _ => True := by
  refine (tracks_parseListMatch tracks_parseAddressKey (.address side)).congr ?_ fun _ _ _ => Iff.rfl
  intro cursor source related fits
  simp only [lift, keep, leaf, parseAddressMatch, readWord32, taken, readKeys_addresses]
  rcases cut 4 source.input with _ | ⟨count, input⟩
  · rfl
  · dsimp only [map_some, bind_some]
    rcases parseAddresses (bigEndian count) input with _ | ⟨keys, input⟩
    · rfl
    · cases all : takes (trieAlloc Unit) keys <;> simp [takenFilter, all]

theorem tracks_parsePortMatch (side : Side) :
    Tracks message (parsePortMatch machine message side)
      (fun source => keep (leaf (Flow.parsePortMatch side source.input) source.store))
      fun _ => True := by
  refine (tracks_parseListMatch tracks_parsePortKey (.port side)).congr ?_ fun _ _ _ => Iff.rfl
  intro cursor source related fits
  simp only [lift, keep, leaf, Flow.parsePortMatch, taken, readKeys_ports]
  rcases cut 2 source.input with _ | ⟨count, input⟩
  · rfl
  · dsimp only [map_some, bind_some]
    rcases parsePorts (bigEndian count) input with _ | ⟨keys, input⟩
    · rfl
    · cases all : takes (trieAlloc Unit) keys <;> simp [takenFilter, all]

theorem tracks_diffAddrStoreInit :
    Tracks message (diffAddrStoreInit machine)
      (fun source => some (source.store, ⟨source.input, source.store + 1⟩)) fun _ => True := by
  have small : storeSize machine + machine.header + pageSize < machine.limit := by
    apply constant_fits
    cases machine <;> simp [storeSize, Machine.word]
  intro cursor source related
  refine ⟨fun _ => ?_, fun absurd => (absurd trivial).elim⟩
  obtain ⟨later, allocated, related'⟩ := (tracks_memPoolAlloc _).returns related small rfl
  obtain ⟨last, trie, related''⟩ := (@tracks_allocTrie machine message).returns related' trivial rfl
  rw [diffAddrStoreInit, Checked.bind_ok allocated, Checked.bind_ok trie,
    Checked.bind_ok (fill_ok (by omega)), Checked.get_bind]
  refine ⟨rfl, related''.stores, ?_⟩
  exact { related'' with stores := congrArg (· + 1) related''.stores }

/-- A differential filter has a complete name. -/
def named (side : Side) : Option Bytes → Source → Option (Filter × Source)
  | none, _ => none
  | some name, source =>
    some (.differential side (cString name) source.store, ⟨source.input, source.store + 1⟩)

theorem tracks_named (side : Side) (name : Option Bytes) : Tracks message
    (match name with
      | none => Checked.stop .died
      | some name => diffAddrStoreInit machine >>= fun store =>
        pure (.differential side (cString name) store))
    (named side name) fun _ => True := by
  cases name with
  | none => exact Follows.died
  | some name =>
    exact (Follows.bind tracks_diffAddrStoreInit fun store =>
      Follows.value (Filter.differential side (cString name) store)).congr
        (fun _ _ _ _ => rfl) fun _ _ _ => by simp

theorem tracks_parseDifferential (side : Side) :
    Tracks message (parseDifferential machine message side)
      (fun source => keep (Flow.parseDifferential side source.input source.store))
      fun source => StringFits machine source.input := by
  refine (Follows.bind tracks_uplinkParseString (tracks_named side)).congr ?_ fun _ _ _ => by simp
  intro cursor source related fits
  rw [stringOf, Flow.parseDifferential, keep]
  cases Core.uplinkParseString source.input <;> rfl

/-- This is the range behind its header. -/
def prefixOf (side : Side) (v6 : Bool) (netmask : Nat) (source : Source) :
    Option (Filter × Source) :=
  if (if v6 then 16 else 4) < (netmask + 7) / 8 then none
  else (lift (cut ((netmask + 7) / 8)) source).bind fun (bytes, source) =>
    if netmask = 0 then none
    else some (.range side v6 (prefixAddress (if v6 then 16 else 4) netmask bytes)
      (prefixMask (if v6 then 16 else 4) netmask), source)

theorem parseRange_header (side : Side) (family netmask : UInt8) (source : Source) :
    keep (leaf (Flow.parseRange side (family :: netmask :: source.input)) source.store) =
      prefixOf side (family == 6) netmask.toNat source := by
  have zero : netmask.toNat = 0 ↔ netmask = 0 := by
    rw [← UInt8.toNat_inj]
    rfl
  have long : ¬ (family :: netmask :: source.input).length < 2 := by simp
  rw [prefixOf, lift, Flow.parseRange, if_neg long]
  simp only [parseByte, bind_some, zero]
  generalize (if (family == 6) = true then 16 else 4) = addrLen
  split
  · rfl
  · rcases cut ((netmask.toNat + 7) / 8) source.input with _ | ⟨bytes, input⟩
    · rfl
    · dsimp only [map_some, bind_some]
      split <;> rfl

theorem tracks_parsePrefix (side : Side) (v6 : Bool) (netmask : Nat) :
    Tracks message (parsePrefix machine message side v6 netmask) (prefixOf side v6 netmask)
      fun _ => True := by
  intro cursor source related
  refine ⟨fun _ => ?_, fun absurd => (absurd trivial).elim⟩
  obtain ⟨addrLen, defined⟩ : ∃ addrLen, addrLen = if v6 then 16 else 4 := ⟨_, rfl⟩
  obtain ⟨prefixLen, ceiling⟩ : ∃ prefixLen, prefixLen = (netmask + 7) / 8 := ⟨_, rfl⟩
  have small : addrLen ≤ 255 := by
    rw [defined]
    split <;> omega
  have rest := related.rest
  unfold parsePrefix prefixOf
  dsimp only
  rw [← defined, ← ceiling]
  by_cases long : addrLen < prefixLen
  · rw [Checked.bind_error (Checked.require_error (by simpa using long)), if_pos long]
    exact ⟨rfl, trivial⟩
  rw [Checked.bind_ok (Checked.require_ok (by simpa using long)), Checked.get_bind, if_neg long, lift,
    cut]
  by_cases missing : source.input.length < prefixLen
  · rw [Checked.bind_error (Checked.require_error (by simp; omega)), if_pos missing]
    exact ⟨rfl, trivial⟩
  rw [Checked.bind_ok (Checked.require_ok (by simp; omega)), if_neg missing]
  dsimp only [map_some, bind_some]
  by_cases empty : netmask = 0
  · rw [Checked.bind_error (Checked.require_error (by simpa using empty)), if_pos empty]
    exact ⟨rfl, trivial⟩
  have enough : prefixLen ≤ source.input.length := by omega
  obtain ⟨first, mask, related₁⟩ :=
    (@tracks_memPoolAlloc machine message addrLen).returns related (constant_fits small) rfl
  obtain ⟨second, address, related₂⟩ :=
    (@tracks_memPoolAlloc machine message addrLen).returns related₁ (constant_fits small) rfl
  obtain ⟨last, advanced, related₃⟩ := @advance_ok machine message second source related₂ _ enough
  have fills : ∀ offset amount : Nat, offset + amount ≤ addrLen → ∀ cursor : Cursor,
      fill addrLen offset amount cursor = ⟨false, .ok ((), cursor)⟩ :=
    fun offset amount inside cursor => fill_ok inside
  rw [Checked.bind_ok (Checked.require_ok (by simpa using empty)), Checked.bind_ok mask,
    Checked.bind_ok address, Checked.bind_ok (peek_ok related₂ (by omega)),
    Checked.bind_ok (fills _ _ (by omega) _), Checked.bind_ok advanced,
    Checked.bind_ok (fills _ _ (by omega) _), Checked.bind_ok (fills _ _ (by omega) _),
    Checked.bind_ok (fills _ _ (by omega) _), Checked.bind_ok (fills _ _ (by omega) _),
    Checked.bind_ok (fills _ _ (by omega) _), if_neg empty]
  exact ⟨rfl, rfl, related₃⟩

theorem tracks_parseRange (side : Side) :
    Tracks message (parseRange machine message side)
      (fun source => keep (leaf (Flow.parseRange side source.input) source.store))
      fun _ => True := by
  intro cursor source related
  refine ⟨fun _ => ?_, fun absurd => (absurd trivial).elim⟩
  have rest := related.rest
  rw [parseRange, Checked.get_bind]
  by_cases short : source.input.length < 2
  · have broken : Flow.parseRange side source.input = none := if_pos short
    rw [Checked.bind_error (Checked.require_error (by simp; omega))]
    dsimp only
    rw [broken]
    exact ⟨rfl, trivial⟩
  · obtain ⟨input, store⟩ := source
    rcases input with _ | ⟨family, _ | ⟨netmask, input⟩⟩
    · simp at short
    · simp at short
    obtain ⟨first, read, related₁⟩ := (@tracks_takeBytes machine message 1).returns related trivial
      (by rfl : lift (cut 1) _ = some ([family], ⟨netmask :: input, store⟩))
    obtain ⟨second, read', related₂⟩ := (@tracks_takeBytes machine message 1).returns related₁ trivial
      (by rfl : lift (cut 1) _ = some ([netmask], ⟨input, store⟩))
    rw [Checked.bind_ok (Checked.require_ok (by simp; omega)), Checked.bind_ok read,
      Checked.bind_ok read', bigEndian_byte]
    dsimp only
    rw [parseRange_header side family netmask ⟨input, store⟩]
    have same : ([family] == [6]) = (family == 6) := by simp
    rw [same]
    exact (tracks_parsePrefix side _ netmask.toNat second _ related₂).1 trivial

theorem subsOf_succ (fuel count : Nat) (source : Source) :
    subsOf fuel (count + 1) source = (oneOf fuel source).bind fun (filter, source) =>
      (subsOf fuel count source).bind fun (filters, source) => some (filter :: filters, source) := by
  simp only [subsOf, oneOf, keepAll, keep, Flow.parseSubs]
  rcases Flow.parseOne fuel source.input source.store with _ | first
  · rfl
  · dsimp only [bind_some]
    rcases rest : Flow.parseSubs (Flow.parseOne fuel) count first.rest first.nextStore with _ | last
    · cases takenFilter first.value <;> simp [rest]
    · cases one : takenFilter first.value <;> cases all : takenFilters last.value <;>
        simp [takenFilters, one, all, rest]

variable {fuel : Nat}

/-- The block has room for the filters that are left. -/
theorem tracks_parseSubs {block amount left : Nat} (few : left ≤ amount)
    (room : amount * filterSize machine ≤ block)
    (one : ∀ block index, index * filterSize machine + filterSize machine ≤ block →
      Tracks message (parseOne machine message fuel block index) (oneOf fuel)
        (FilterFits machine fuel)) :
    Tracks message (parseSubs (parseOne machine message fuel block) amount left) (subsOf fuel left)
      (SubsFit (oneOf fuel) (FilterFits machine fuel) left) := by
  induction left with
  | zero => exact (Follows.value []).congr (fun _ _ _ _ => rfl) fun _ _ _ => Iff.rfl
  | succ left ih =>
    have inside : (amount - (left + 1)) * filterSize machine + filterSize machine ≤ block := by
      rw [← Nat.succ_mul]
      refine (Nat.mul_le_mul_right _ ?_).trans room
      omega
    have later := ih (by omega)
    exact (Follows.bind (one block _ inside) fun filter => Follows.bind later fun filters =>
      Follows.value (filter :: filters)).congr (fun _ source _ _ => (subsOf_succ fuel left source).symm)
        fun _ _ _ => by simp [SubsFit]

theorem tracks_parseManySubs {combine : List Filter → Filter}
    (combined : ∀ filters, takenFilter (combine filters) = takenFilters filters)
    (one : ∀ block index, index * filterSize machine + filterSize machine ≤ block →
      Tracks message (parseOne machine message fuel block index) (oneOf fuel)
        (FilterFits machine fuel)) :
    Tracks message (parseManySubs machine message (parseOne machine message fuel) combine)
      (fun source =>
        keep (Flow.parseManySubs (Flow.parseOne fuel) combine source.input source.store))
      (ManySubsFit machine (oneOf fuel) (FilterFits machine fuel)) := by
  have body : ∀ count : Bytes, Tracks message
      (sized machine (bigEndian count * filterSize machine) >>= fun size =>
        memPoolAlloc machine size >>= fun block =>
          parseSubs (parseOne machine message fuel block) (bigEndian count) (bigEndian count) >>=
            fun filters => pure (combine filters))
      (fun source => (subsOf fuel (bigEndian count) source).bind fun (filters, source) =>
        some (combine filters, source)) _ := fun count =>
    Follows.fixed (tracks_sized _) (Follows.fixed (tracks_memPoolAlloc _)
      (Follows.bind (tracks_parseSubs le_rfl le_rfl one) fun filters =>
        Follows.value (combine filters)))
  refine (Follows.bind (tracks_takeBytes 4) body).congr ?_ ?_
  · intro cursor source related fits
    simp only [lift, subsOf, Flow.parseManySubs, readWord32]
    rcases cut 4 source.input with _ | ⟨count, input⟩
    · rfl
    · dsimp only [map_some, bind_some]
      rcases Flow.parseSubs (Flow.parseOne fuel) (bigEndian count) input source.store with _ | parsed
      · rfl
      · cases all : takenFilters parsed.value <;> simp [keep, keepAll, combined, all]
  · intro cursor source related
    simp only [ManySubsFit, lift, readWord32]
    rcases cut 4 source.input with _ | ⟨count, input⟩
    · simp
    · simp only [true_and, map_some, Option.some.injEq, Prod.mk.injEq, and_imp, forall_eq',
        forall_apply_eq_imp_iff]
      exact ⟨fun all => ⟨all.2.1, all.2.2.1⟩,
        fun both => ⟨by omega, both.1, both.2, fun _ _ _ => trivial⟩⟩

theorem tracks_parseSub
    (one : ∀ block index, index * filterSize machine + filterSize machine ≤ block →
      Tracks message (parseOne machine message fuel block index) (oneOf fuel)
        (FilterFits machine fuel)) :
    Tracks message (parseSub machine (parseOne machine message fuel))
      (fun source => (oneOf fuel source).bind fun (filter, source) => some (.negation filter, source))
      (FilterFits machine fuel) := by
  have small : filterSize machine + machine.header + pageSize < machine.limit := by
    apply constant_fits
    cases machine <;> simp [filterSize, Machine.word]
  have sub : Tracks message (memPoolAlloc machine (filterSize machine) >>= fun block =>
      parseOne machine message fuel block 0 >>= fun filter => pure (Filter.negation filter)) _ _ :=
    Follows.fixed (tracks_memPoolAlloc _) (Follows.bind (one (filterSize machine) 0 (by omega))
      fun filter => Follows.value (Filter.negation filter))
  exact sub.congr (fun _ _ _ _ => rfl) fun _ _ _ => by simp [small]

/-- The parser of a code reads what is behind it. -/
theorem tracks_parserOf (code : UInt8)
    (one : ∀ block index, index * filterSize machine + filterSize machine ≤ block →
      Tracks message (parseOne machine message fuel block index) (oneOf fuel)
        (FilterFits machine fuel)) :
    (parserOf machine message (parseOne machine message fuel) code = none ∧
      (∀ input store, Flow.parseOne (fuel + 1) (code :: input) store = none) ∧
      ∀ source, BodyFits machine (oneOf fuel) (FilterFits machine fuel) code source) ∨
    ∃ parser, parserOf machine message (parseOne machine message fuel) code = some parser ∧
      Tracks message parser
        (fun source => keep (Flow.parseOne (fuel + 1) (code :: source.input) source.store))
        (BodyFits machine (oneOf fuel) (FilterFits machine fuel) code) := by
  by_cases always : code = letter 'T'
  · subst always
    exact Or.inr ⟨_, rfl, (Follows.value (Filter.constant true)).congr (fun _ _ _ _ => rfl)
      fun _ _ _ => Iff.rfl⟩
  by_cases never : code = letter 'F'
  · subst never
    exact Or.inr ⟨_, rfl, (Follows.value (Filter.constant false)).congr (fun _ _ _ _ => rfl)
      fun _ _ _ => Iff.rfl⟩
  by_cases negation : code = letter '!'
  · subst negation
    refine Or.inr ⟨_, rfl, (tracks_parseSub one).congr ?_ fun _ _ _ => Iff.rfl⟩
    intro cursor source related fits
    change _ = keep ((Flow.parseOne fuel source.input source.store).map _)
    rw [oneOf, keep]
    rcases Flow.parseOne fuel source.input source.store with _ | parsed
    · rfl
    · cases all : takenFilter parsed.value <;> simp [keep, takenFilter, all]
  by_cases conjunction : code = letter '&'
  · subst conjunction
    exact Or.inr ⟨_, rfl, (tracks_parseManySubs (fun _ => rfl) one).congr (fun _ _ _ _ => rfl)
      fun _ _ _ => Iff.rfl⟩
  by_cases disjunction : code = letter '|'
  · subst disjunction
    exact Or.inr ⟨_, rfl, (tracks_parseManySubs (fun _ => rfl) one).congr (fun _ _ _ _ => rfl)
      fun _ _ _ => Iff.rfl⟩
  by_cases nearAddress : code = letter 'i'
  · subst nearAddress
    exact Or.inr ⟨_, rfl, (tracks_parseIpMatch .near).congr (fun _ _ _ _ => rfl) fun _ _ _ => Iff.rfl⟩
  by_cases remoteAddress : code = letter 'I'
  · subst remoteAddress
    exact Or.inr ⟨_, rfl, (tracks_parseIpMatch .remote).congr (fun _ _ _ _ => rfl)
      fun _ _ _ => Iff.rfl⟩
  by_cases nearPort : code = letter 'p'
  · subst nearPort
    exact Or.inr ⟨_, rfl, (tracks_parsePortMatch .near).congr (fun _ _ _ _ => rfl)
      fun _ _ _ => Iff.rfl⟩
  by_cases remotePort : code = letter 'P'
  · subst remotePort
    exact Or.inr ⟨_, rfl, (tracks_parsePortMatch .remote).congr (fun _ _ _ _ => rfl)
      fun _ _ _ => Iff.rfl⟩
  by_cases nearStore : code = letter 'd'
  · subst nearStore
    exact Or.inr ⟨_, rfl, (tracks_parseDifferential .near).congr (fun _ _ _ _ => rfl)
      fun _ _ _ => Iff.rfl⟩
  by_cases remoteStore : code = letter 'D'
  · subst remoteStore
    exact Or.inr ⟨_, rfl, (tracks_parseDifferential .remote).congr (fun _ _ _ _ => rfl)
      fun _ _ _ => Iff.rfl⟩
  by_cases nearRange : code = letter 'r'
  · subst nearRange
    exact Or.inr ⟨_, rfl, (tracks_parseRange .near).congr (fun _ _ _ _ => rfl) fun _ _ _ => Iff.rfl⟩
  by_cases remoteRange : code = letter 'R'
  · subst remoteRange
    exact Or.inr ⟨_, rfl, (tracks_parseRange .remote).congr (fun _ _ _ _ => rfl)
      fun _ _ _ => Iff.rfl⟩
  refine Or.inl ⟨?_, fun input store => ?_, fun source => ?_⟩
  · rw [parserOf, if_neg always, if_neg never, if_neg negation, if_neg conjunction,
      if_neg disjunction, if_neg nearAddress, if_neg remoteAddress, if_neg nearPort,
      if_neg remotePort, if_neg nearStore, if_neg remoteStore, if_neg nearRange, if_neg remoteRange]
  · rw [Flow.parseOne, parseByte, bind_some]
    dsimp only
    rw [if_neg always, if_neg never, if_neg negation, if_neg conjunction, if_neg disjunction,
      if_neg nearAddress, if_neg remoteAddress,
      if_neg nearPort, if_neg remotePort, if_neg nearStore, if_neg remoteStore, if_neg nearRange,
      if_neg remoteRange]
  · simp [BodyFits, negation, conjunction, disjunction, nearStore, remoteStore]

/-- The parser of the code runs when the block of the filter is filled. -/
theorem tracks_body {fuel block index : Nat}
    (smaller : ∀ block index, index * filterSize machine + filterSize machine ≤ block →
      Tracks message (parseOne machine message fuel block index) (oneOf fuel)
        (FilterFits machine fuel))
    (inside : index * filterSize machine + filterSize machine ≤ block) {code : Bytes}
    {source later : Source} (cuts : lift (cut 1) source = some (code, later)) : Tracks message
      (match parserOf machine message (parseOne machine message fuel) (code.headD 0) with
        | none => Checked.stop .died
        | some parser => fill block (index * filterSize machine) (filterSize machine) >>=
            fun _ => parser)
      (fun source => keep (Flow.parseOne (fuel + 1) (code ++ source.input) source.store))
      (BodyFits machine (oneOf fuel) (FilterFits machine fuel) (code.headD 0)) := by
  obtain ⟨byte, rfl⟩ := length_eq_one_iff.mp (lift_cut_length cuts)
  rcases tracks_parserOf byte smaller with ⟨unknown, plain, fits⟩ | ⟨parser, known, tracks⟩
  · dsimp only [headD_cons]
    rw [unknown]
    exact Follows.died.congr (fun _ source _ _ => by
      rw [singleton_append, plain]
      rfl) fun _ source _ => iff_of_true trivial (fits source)
  · dsimp only [headD_cons]
    rw [known]
    intro cursor source related
    dsimp only
    rw [Checked.bind_ok (fill_ok inside)]
    exact tracks cursor source related

theorem tracks_parseOne (fuel : Nat) : ∀ block index,
    index * filterSize machine + filterSize machine ≤ block →
      Tracks message (parseOne machine message fuel block index) (oneOf fuel)
        (FilterFits machine fuel) := by
  induction fuel with
  | zero => exact fun block index inside => Follows.died
  | succ fuel ih =>
    intro block index inside
    refine (Follows.bind_produced (tracks_takeBytes 1)
      fun _ _ _ cuts => tracks_body ih inside cuts).congr ?_ ?_
    · intro cursor source related fits
      obtain ⟨input, store⟩ := source
      cases input with
      | nil => rfl
      | cons byte input => simp [lift, cut, oneOf]
    · intro cursor source related
      obtain ⟨input, store⟩ := source
      cases input with
      | nil => simp [FilterFits, lift, cut, parseByte]
      | cons byte input => simp [FilterFits, lift, cut, parseByte]

/-- An empty source is a filter for everything. -/
def filterOf (source : Source) : Option (Filter × Source) :=
  if source.input = [] then some (.constant true, source) else oneOf source.input.length source

/-- The top filter has a block of its own. -/
theorem tracks_filterParse :
    Tracks message (filterParse machine message) filterOf
      (fun source => FilterFits machine source.input.length source) := by
  have small : filterSize machine + machine.header + pageSize < machine.limit := by
    apply constant_fits
    cases machine <;> simp [filterSize, Machine.word]
  intro cursor source related
  obtain ⟨later, allocated, related'⟩ :=
    (@tracks_memPoolAlloc machine message (filterSize machine)).returns related small rfl
  have rest := related'.rest
  rw [filterParse, Checked.bind_ok allocated, Checked.get_bind]
  by_cases empty : source.input = []
  · have finished : later.rest = 0 := by simp [rest, empty]
    have fitting : FilterFits machine source.input.length source := by simp [empty, FilterFits]
    refine ⟨fun _ => ?_, fun large => absurd fitting large⟩
    rw [if_pos finished, Checked.bind_ok (fill_ok (by omega)), filterOf, if_pos empty]
    exact ⟨rfl, rfl, related'⟩
  · have more : later.rest ≠ 0 := by simpa [rest] using empty
    rw [if_neg more, rest, filterOf, if_neg empty]
    exact tracks_parseOne source.input.length _ 0 (by omega) later source related'

end Parsers

end Ucollect.Sizes
