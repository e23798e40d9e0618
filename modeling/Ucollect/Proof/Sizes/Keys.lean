import Ucollect.Construction.Flow.Sizes

/-
This file proves which sizes the allocation of a block and the steps through a message can take.
-/

namespace Ucollect.Sizes
open Library Core MemPool List Option

/-- The plain parsers take their values from the front of the input. -/
structure Source where
  input : Bytes
  store : Nat

/-- The cursor stands in the message before the input. -/
structure Cursor.At (message : Bytes) (cursor : Cursor) (source : Source) : Prop where
  inside : cursor.position ≤ message.length
  input : source.input = message.drop cursor.position
  rest : cursor.rest = source.input.length
  small : message.length < 2 ^ 32
  available : cursor.available ≤ pageSize
  stores : cursor.stores = source.store

/-- A parser that follows a plain one where its sizes fit. -/
abbrev Tracks {A : Type} (message : Bytes) (parser : Parser A)
    (plain : Source → Option (A × Source)) (fits : Source → Prop) : Prop :=
  Follows (Cursor.At message) parser plain fits

section Memory

variable {machine : Machine} {message : Bytes} {cursor : Cursor} {source : Source}

theorem narrow_le_limit : 2 ^ 32 ≤ machine.limit := by
  cases machine <;> simp [Machine.limit]

theorem sized_ok {value : Nat} (small : value < machine.limit) :
    sized machine value cursor = ⟨false, .ok (value, cursor)⟩ :=
  Checked.number_ok small

theorem roundTo_ok {unit value : Nat} (positive : 0 < unit) (small : value + unit < machine.limit) :
    roundTo machine unit value cursor =
      ⟨false, .ok ((value + unit - 1) / unit * unit, cursor)⟩ := by
  have shifted : (value + unit + (machine.limit - 1)) % machine.limit = value + unit - 1 := by
    have sum : value + unit + (machine.limit - 1) = value + unit - 1 + machine.limit := by omega
    rw [sum, Nat.add_mod_right, Nat.mod_eq_of_lt (by omega)]
  rw [roundTo, Checked.bind_ok (sized_ok small), shifted]
  rfl

/-- A size near the top wraps when it is rounded. -/
theorem roundTo_wrapped {unit value : Nat} (large : machine.limit ≤ value + unit) :
    (roundTo machine unit value cursor).wrapped = true := by
  rw [roundTo]
  apply Checked.bind_wrapped
  simpa [sized, Checked.number] using large

theorem carve_none {available size : Nat} (short : available < size) :
    carve machine available size cursor = ⟨false, .ok (none, cursor)⟩ := by
  rw [carve, if_pos short]
  rfl

/-- The block is rounded up to words, so at least its bytes are gone. -/
theorem carve_some {available size : Nat} (enough : size ≤ available)
    (small : size + machine.word < machine.limit) :
    ∃ left ≤ available - size,
      carve machine available size cursor = ⟨false, .ok (some left, cursor)⟩ := by
  have positive : 0 < machine.word := by cases machine <;> simp [Machine.word]
  have rounded : size ≤ (size + machine.word - 1) / machine.word * machine.word := by
    have above := @Nat.lt_div_mul_add (size + machine.word - 1) _ positive
    omega
  refine ⟨available - min ((size + machine.word - 1) / machine.word * machine.word) available, ?_, ?_⟩
  · omega
  · rw [carve, if_neg (Nat.not_lt.mpr enough), Checked.bind_ok (roundTo_ok positive small)]
    rfl

/-- A page has room for the block behind its header, and less than another page is left. -/
theorem memPoolAllocPage_ok {size : Nat} (small : size + machine.header + pageSize < machine.limit) :
    ∃ available ≤ pageSize,
      memPoolAllocPage machine size cursor = ⟨false, .ok (available, cursor)⟩ := by
  have word : 0 < machine.word ∧ machine.word ≤ pageSize := by
    cases machine <;> simp [Machine.word, pageSize]
  have positive : 0 < pageSize := by simp [pageSize]
  obtain ⟨page, paged⟩ : ∃ page,
      page = (size + machine.header + pageSize - 1) / pageSize * pageSize := ⟨_, rfl⟩
  have least : size + machine.header ≤ page := by
    rw [paged, pageSize]
    omega
  have most : page ≤ size + machine.header + pageSize - 1 := by
    rw [paged]
    exact Nat.div_mul_le_self _ _
  have header : 0 < machine.header := by cases machine <;> simp [Machine.header, Machine.word]
  obtain ⟨left, least', carved⟩ :=
    @carve_some machine cursor (page - machine.header) size (by omega) (by omega)
  refine ⟨left, by omega, ?_⟩
  rw [memPoolAllocPage, Checked.bind_ok (sized_ok (by omega)),
    Checked.bind_ok (roundTo_ok positive small), ← paged,
    Checked.bind_ok (Checked.require_ok (by simp; omega)), Checked.bind_ok carved]
  rfl

/-- So does a block of its own page. -/
theorem memPoolAllocPage_wrapped {size : Nat}
    (large : ¬ size + machine.header + pageSize < machine.limit) :
    (memPoolAllocPage machine size cursor).wrapped = true := by
  rw [memPoolAllocPage]
  by_cases small : size + machine.header < machine.limit
  · rw [Checked.bind_ok (sized_ok small)]
    exact Checked.bind_wrapped (roundTo_wrapped (Nat.le_of_not_lt large))
  · apply Checked.bind_wrapped
    simpa [sized, Checked.number] using small

theorem tracks_sized (value : Nat) :
    Tracks message (sized machine value) (fun source => some (value, source))
      fun _ => value < machine.limit :=
  Follows.number machine.limit value

/-- The block is allocated exactly when the size and a page are below the limit. -/
theorem tracks_memPoolAlloc (size : Nat) :
    Tracks message (memPoolAlloc machine size) (fun source => some (size, source))
      fun _ => size + machine.header + pageSize < machine.limit := by
  intro cursor source related
  have word : machine.word < pageSize := by cases machine <;> simp [Machine.word, pageSize]
  have limit : 2 * pageSize + machine.header < machine.limit := by
    cases machine <;> simp [Machine.limit, pageSize, Machine.header, Machine.word]
  have room := related.available
  by_cases enough : size ≤ cursor.available
  · have small : size + machine.header + pageSize < machine.limit := by omega
    refine ⟨fun _ => ?_, fun large => absurd small large⟩
    obtain ⟨left, less, carved⟩ :=
      @carve_some machine cursor cursor.available size enough (by omega)
    have run : memPoolAlloc machine size cursor =
        ⟨false, .ok (size, { cursor with available := left })⟩ := by
      rw [memPoolAlloc, Checked.get_bind, Checked.bind_ok carved]
      rfl
    rw [run]
    refine ⟨rfl, rfl, { related with available := ?_ }⟩
    change left ≤ pageSize
    omega
  · have short := @carve_none machine cursor _ _ (Nat.lt_of_not_le enough)
    constructor
    · intro small
      obtain ⟨available, page, paged⟩ := @memPoolAllocPage_ok machine cursor size small
      have run : memPoolAlloc machine size cursor =
          ⟨false, .ok (size, { cursor with available := max cursor.available available })⟩ := by
        rw [memPoolAlloc, Checked.get_bind, Checked.bind_ok short]
        dsimp only
        rw [Checked.bind_ok paged]
        rfl
      rw [run]
      exact ⟨rfl, rfl, { related with available := max_le room page }⟩
    · intro large
      rw [memPoolAlloc, Checked.get_bind, Checked.bind_ok short]
      dsimp only
      exact Checked.bind_wrapped (memPoolAllocPage_wrapped large)

theorem fill_ok {block offset amount : Nat} (fits : offset + amount ≤ block) :
    fill block offset amount cursor = ⟨false, .ok ((), cursor)⟩ :=
  Checked.require_ok (by simpa using fits)

/-- The bytes of the input are bytes of the message. -/
theorem peek_ok (related : Cursor.At message cursor source) {offset amount : Nat}
    (enough : offset + amount ≤ source.input.length) :
    peek message offset amount cursor =
      ⟨false, .ok ((source.input.drop offset).take amount, cursor)⟩ := by
  have size : source.input.length = message.length - cursor.position := by
    rw [related.input, length_drop]
  have inside := related.inside
  have reach : cursor.position + offset + amount ≤ message.length := by omega
  rw [peek, Checked.get_bind, Checked.bind_ok (Checked.require_ok (by simpa using reach)),
    related.input, drop_drop]
  rfl

theorem advance_ok (related : Cursor.At message cursor source) {amount : Nat}
    (enough : amount ≤ source.input.length) :
    ∃ later, advance machine amount cursor = ⟨false, .ok ((), later)⟩ ∧
      Cursor.At message later ⟨source.input.drop amount, source.store⟩ := by
  have limit := @narrow_le_limit machine
  have size : source.input.length = message.length - cursor.position := by
    rw [related.input, length_drop]
  have inside := related.inside
  have small := related.small
  have rest := related.rest
  have lower : (cursor.rest + machine.limit - amount) % machine.limit = cursor.rest - amount := by
    have sum : cursor.rest + machine.limit - amount = cursor.rest - amount + machine.limit := by omega
    rw [sum, Nat.add_mod_right, Nat.mod_eq_of_lt (by omega)]
  refine ⟨{ cursor with position := cursor.position + amount, rest := cursor.rest - amount }, ?_, ?_⟩
  · rw [advance, lower]
    simpa [rest] using enough
  · constructor
    · change cursor.position + amount ≤ message.length
      omega
    · rw [related.input, drop_drop]
    · rw [length_drop, rest]
    · exact small
    · exact related.available
    · exact related.stores

/-- A plain reader of bytes leaves the stores. -/
def lift {A : Type} (reader : Bytes → Option (A × Bytes)) (source : Source) : Option (A × Source) :=
  (reader source.input).map fun (value, input) => (value, ⟨input, source.store⟩)

theorem tracks_takeBytes (amount : Nat) :
    Tracks message (takeBytes machine message amount) (lift (cut amount)) fun _ => True := by
  intro cursor source related
  refine ⟨fun _ => ?_, fun absurd => (absurd trivial).elim⟩
  rw [takeBytes, Checked.get_bind, lift, cut, related.rest]
  by_cases short : source.input.length < amount
  · rw [Checked.bind_error (Checked.require_error (by simpa using short)), if_pos short]
    exact ⟨rfl, trivial⟩
  · obtain ⟨later, advanced, related'⟩ :=
      @advance_ok machine message cursor source related amount (Nat.le_of_not_lt short)
    rw [Checked.bind_ok (Checked.require_ok (by simpa using short)),
      Checked.bind_ok (peek_ok related (by omega)), Checked.bind_ok advanced, if_neg short]
    exact ⟨rfl, rfl, related'⟩

end Memory

end Ucollect.Sizes

/-
This file proves that the sizes of tries and of their keys always fit.
-/

namespace Ucollect.Sizes
open Library Core MemPool Flow List Option

section Blocks

variable (machine : Machine) {message : Bytes}

mutual

/-- A block of a trie is a node or a part of the key. -/
theorem indexBlocks_small (node : TrieNode) (key : Key) :
    ∀ size ∈ indexBlocks machine node key, size ≤ nodeSize machine ∨ size ≤ key.length := by
  obtain ⟨address, nodeKey, active, children⟩ := node
  intro size member
  rw [indexBlocks] at member
  split at member
  · have shorter : (key.drop (lcp key nodeKey)).length ≤ key.length := by simp
    split at member
    · simp at member
    · rename_i byte rest dropped
      rw [dropped] at shorter
      have below := descendBlocks_small children byte rest size member
      omega
  · simp only [newNodeBlocks, mem_cons, not_mem_nil, or_false] at member
    rcases member with rfl | rfl | rfl
    · exact Or.inl le_rfl
    · exact Or.inl le_rfl
    · simp

theorem descendBlocks_small (children : List TrieNode) (byte : UInt8) (rest : Key) :
    ∀ size ∈ descendBlocks machine children byte rest,
      size ≤ nodeSize machine ∨ size ≤ (byte :: rest).length := by
  intro size member
  cases children with
  | nil =>
    simp only [descendBlocks, newNodeBlocks, mem_cons, not_mem_nil, or_false] at member
    omega
  | cons child after =>
    rw [descendBlocks] at member
    split at member
    · simp at member
    · split at member
      · exact indexBlocks_small child (byte :: rest) size member
      · exact descendBlocks_small after byte rest size member

end

variable {machine}

theorem tracks_fillBlocks {sizes : List Nat}
    (small : ∀ size ∈ sizes, size + machine.header + pageSize < machine.limit) :
    Tracks message (fillBlocks machine sizes) (fun source => some ((), source)) fun _ => True := by
  induction sizes with
  | nil => exact Follows.value ()
  | cons size sizes ih =>
    rw [forall_mem_cons] at small
    intro cursor source related
    obtain ⟨later, allocated, related'⟩ := (tracks_memPoolAlloc size).returns related small.1 rfl
    have rest := ih small.2 later source related'
    rw [fillBlocks, Checked.bind_ok allocated, Checked.bind_ok (fill_ok (by omega))]
    exact rest

theorem constant_fits {size : Nat} (small : size ≤ 255) :
    size + machine.header + pageSize < machine.limit := by
  cases machine <;> simp [Machine.header, Machine.word, pageSize, Machine.limit] <;> omega

theorem tracks_marked (marked : Option (Trie Unit)) : Tracks message
    (match marked with
      | none => Checked.stop .died
      | some trie => pure trie)
    (fun source => marked.map fun trie => (trie, source)) fun _ => True := by
  cases marked with
  | none => exact Follows.died
  | some trie => exact Follows.value trie

/-- A short key is indexed without a wrap. -/
theorem tracks_indexKey (trie : Trie Unit) {key : Key} (short : key.length ≤ 255) :
    Tracks message (indexKey machine trie key)
      (fun source => (markKey trie key).map fun trie => (trie, source)) fun _ => True := by
  have node : nodeSize machine ≤ 255 := by
    cases machine <;> simp [nodeSize, Machine.word]
  have blocks := @tracks_fillBlocks machine message (indexBlocks machine trie.root key)
    fun size member => constant_fits (by
      have small := indexBlocks_small machine trie.root key size member
      omega)
  exact (Follows.fixed blocks (tracks_marked (markKey trie key))).congr (fun _ _ _ _ => rfl) fun _ _ _ => by simp

theorem tracks_allocTrie :
    Tracks message (allocTrie machine) (fun source => some (trieAlloc Unit, source))
      fun _ => True := by
  have small : trieStructSize machine + machine.header + pageSize < machine.limit := by
    apply constant_fits
    cases machine <;> simp [trieStructSize, nodeSize, Machine.word]
  intro cursor source related
  refine ⟨fun _ => ?_, fun absurd => (absurd trivial).elim⟩
  obtain ⟨later, allocated, related'⟩ := (tracks_memPoolAlloc _).returns related small rfl
  rw [allocTrie, Checked.bind_ok allocated, Checked.bind_ok (fill_ok (by omega))]
  exact ⟨rfl, rfl, related'⟩

end Blocks

/-- No assertion fails while the keys are indexed in their order. -/
def takes : Trie Unit → List Bytes → Bool
  | _, [] => true
  | trie, key :: keys =>
    match markKey trie key with
    | none => false
    | some trie => takes trie keys

section Keys

variable {machine : Machine} {message : Bytes}

/-- A key is read and marked. -/
def marked (readKey : Bytes → Option (Bytes × Bytes)) (trie : Trie Unit) (source : Source) :
    Option ((Bytes × Trie Unit) × Source) :=
  (lift readKey source).bind fun (key, source) =>
    (markKey trie key).map fun trie => ((key, trie), source)

def addressKey (input : Bytes) : Option (Bytes × Bytes) :=
  (parseByte input).bind fun (size, input) => cut size.toNat input

theorem tracks_parseSizedKey {size : Nat} (small : size ≤ 255) (trie : Trie Unit) :
    Tracks message (parseSizedKey machine message size trie) (marked (cut size) trie)
      fun _ => True := by
  intro cursor source related
  refine ⟨fun _ => ?_, fun absurd => (absurd trivial).elim⟩
  have rest := related.rest
  rw [parseSizedKey, Checked.get_bind, marked, lift, cut]
  by_cases missing : source.input.length < size
  · rw [Checked.bind_error (Checked.require_error (by simp; omega)), if_pos missing]
    exact ⟨rfl, trivial⟩
  · have whole : size ≤ source.input.length := Nat.le_of_not_lt missing
    have length : (source.input.take size).length ≤ 255 := by
      rw [length_take]
      omega
    rw [Checked.bind_ok (Checked.require_ok (by simp; omega)),
      Checked.bind_ok (peek_ok related (by omega)), drop_zero, if_neg missing]
    dsimp only [map_some, bind_some]
    cases mark : markKey trie (source.input.take size) with
    | none =>
      rw [Checked.bind_error ((tracks_indexKey trie length).dies related trivial (by rw [mark]; rfl))]
      exact ⟨rfl, trivial⟩
    | some trie' =>
      obtain ⟨later, indexed, related'⟩ :=
        (@tracks_indexKey machine message trie _ length).returns related trivial (by rw [mark]; rfl)
      obtain ⟨last, advanced, related''⟩ := @advance_ok machine message later source related' _ whole
      rw [Checked.bind_ok indexed, Checked.bind_ok advanced]
      exact ⟨rfl, rfl, related''⟩

theorem lift_cut_length {amount : Nat} {source later : Source} {front : Bytes}
    (cuts : lift (cut amount) source = some (front, later)) : front.length = amount := by
  rw [lift] at cuts
  cases whole : cut amount source.input with
  | none =>
    rw [whole] at cuts
    cases cuts
  | some pair =>
    rw [whole] at cuts
    cases cuts
    exact (cut_eq_some whole).1

theorem bigEndian_byte (byte : UInt8) : bigEndian [byte] = byte.toNat := by
  simp [bigEndian]

/-- So is a key read from the message. -/
theorem tracks_parseAddressKey (trie : Trie Unit) :
    Tracks message (parseAddressKey machine message trie) (marked addressKey trie)
      fun _ => True := by
  have sized : ∀ size : Bytes, ∀ source later, lift (cut 1) source = some (size, later) →
      Tracks message (parseSizedKey machine message (bigEndian size) trie)
        (marked (cut (bigEndian size)) trie) fun _ => True := by
    intro size source later cuts
    obtain ⟨byte, rfl⟩ := length_eq_one_iff.mp (lift_cut_length cuts)
    have small := byte.toNat_lt
    apply tracks_parseSizedKey
    rw [bigEndian_byte]
    omega
  refine (Follows.bind_produced (tracks_takeBytes 1) sized).congr ?_ fun _ _ _ => by simp
  intro cursor source related fits
  obtain ⟨input, store⟩ := source
  cases input with
  | nil => rfl
  | cons byte rest => simp [lift, cut, marked, addressKey, parseByte, bigEndian_byte]

theorem tracks_parsePortKey (trie : Trie Unit) :
    Tracks message (parsePortKey machine message trie) (marked (cut 2) trie)
      fun _ => True := by
  have indexed : ∀ port : Bytes, ∀ source later, lift (cut 2) source = some (port, later) →
      Tracks message (indexKey machine trie port >>= fun trie => pure (port, trie))
        (fun source => ((markKey trie port).map fun trie => (trie, source)).bind
          fun (trie, source) => some ((port, trie), source)) fun _ => True := by
    intro port source later cuts
    have two := lift_cut_length cuts
    exact (Follows.bind (tracks_indexKey trie (by omega)) fun trie =>
      Follows.value (port, trie)).congr (fun _ _ _ _ => rfl) fun _ _ _ => by simp
  refine (Follows.bind_produced (tracks_takeBytes 2) indexed).congr ?_ fun _ _ _ => by simp
  intro cursor source related fits
  rw [marked]
  rcases lift (cut 2) source with _ | ⟨port, later⟩
  · rfl
  · dsimp only [bind_some]
    cases markKey trie port <;> rfl

/-- The keys of a list, as many as announced. -/
def readKeys (readKey : Bytes → Option (Bytes × Bytes)) :
    Nat → Bytes → Option (List Bytes × Bytes)
  | 0, input => some ([], input)
  | count + 1, input =>
    (readKey input).bind fun (key, input) =>
      (readKeys readKey count input).map fun (keys, input) => (key :: keys, input)

/-- The keys are read, and a trie takes them. -/
def taken (read : Bytes → Option (List Bytes × Bytes)) (trie : Trie Unit) (source : Source) :
    Option (List Bytes × Source) :=
  (lift read source).bind fun (keys, source) => if takes trie keys then some (keys, source) else none

/-- A list of keys never wraps. -/
theorem tracks_parseKeys {parseKey : Trie Unit → Parser (Bytes × Trie Unit)}
    {readKey : Bytes → Option (Bytes × Bytes)}
    (each : ∀ trie, Tracks message (parseKey trie) (marked readKey trie) fun _ => True)
    (count : Nat) (trie : Trie Unit) :
    Tracks message (parseKeys parseKey count trie) (taken (readKeys readKey count) trie)
      fun _ => True := by
  induction count generalizing trie with
  | zero => exact (Follows.value []).congr (fun _ _ _ _ => rfl) fun _ _ _ => Iff.rfl
  | succ count ih =>
    refine (Follows.bind (each trie) fun pair => Follows.bind (ih pair.2)
      fun keys => Follows.value (pair.1 :: keys)).congr ?_ fun _ _ _ => by simp
    intro cursor source related fits
    obtain ⟨input, store⟩ := source
    simp only [marked, taken, lift, readKeys]
    rcases readKey input with _ | ⟨key, input⟩
    · rfl
    · dsimp only [map_some, bind_some]
      cases mark : markKey trie key with
      | none =>
        rcases readKeys readKey count input with _ | ⟨keys, input⟩
        · rfl
        · simp [takes, mark]
      | some later =>
        rcases whole : readKeys readKey count input with _ | ⟨keys, input⟩
        · simp [whole]
        · by_cases all : takes later keys <;> simp [takes, mark, all, whole]

end Keys

end Ucollect.Sizes
