import Ucollect.Construction.Buckets.Client
import Ucollect.Library.Outcomes

/-
The plugin and the server have the same table, and so they put each key into the same bucket.
-/

namespace Ucollect.Buckets
open Library List Option

variable {seed : RngSeed} {rng : Rng} {seedBase hashCount hashLineSize : Nat}

/-- The two halves fit into 32 bits, and neither is zero. -/
structure RngSeed.Alive (seed : RngSeed) : Prop where
  low : seed.low ≠ 0
  high : seed.high ≠ 0
  lowSmall : seed.low < 2 ^ 32
  highSmall : seed.high < 2 ^ 32

def RngSeed.python (seed : RngSeed) : Rng := ⟨seed.low, seed.high⟩

theorem mask16 (value : Nat) : value &&& 0xFFFF = value % 2 ^ 16 :=
  Nat.and_two_pow_sub_one_eq_mod value 16

theorem mask32 (value : Nat) : value &&& 0xFFFFFFFF = value % 2 ^ 32 :=
  Nat.and_two_pow_sub_one_eq_mod value 32

/-- The multiplication does not wrap around, so the sum is zero only for zero. -/
theorem multiply_alive {value factor : Nat} (small : value < 2 ^ 32) (nonzero : value ≠ 0)
    (positive : 0 < factor) (bounded : factor ≤ 36969) :
    (factor * (value &&& 0xFFFF) + (value >>> 16)) % 2 ^ 32 ≠ 0 := by
  rw [mask16, Nat.shiftRight_eq_div_pow]
  have lower : value % 2 ^ 16 < 2 ^ 16 := Nat.mod_lt _ (by decide)
  have upper : value / 2 ^ 16 < 2 ^ 16 := by omega
  have product : factor * (value % 2 ^ 16) ≤ 36969 * (value % 2 ^ 16) :=
    Nat.mul_le_mul_right _ bounded
  rw [Nat.mod_eq_of_lt (by omega)]
  intro zero
  rcases Nat.mul_eq_zero.mp (Nat.eq_zero_of_add_eq_zero_right zero) with none | none
  · omega
  · omega

/-- The generator never reaches a zero half. -/
theorem RngSeed.Alive.step (alive : seed.Alive) : (rngStep seed).Alive :=
  ⟨multiply_alive alive.lowSmall alive.low (by decide) le_rfl,
    multiply_alive alive.highSmall alive.high (by decide) (by decide),
    Nat.mod_lt _ (by decide), Nat.mod_lt _ (by decide)⟩

theorem RngSeed.Alive.after (alive : seed.Alive) (index : Nat) : (rngAfter seed index).Alive := by
  induction index with
  | zero => exact alive.step
  | succ index ih => exact ih.step

/-- The masks of the server do what the width of the plugin does. -/
theorem python_get (seed : RngSeed) :
    seed.python.get = (rngOutput (rngStep seed), (rngStep seed).python) := by
  rw [Rng.get, rngOutput, rngStep, mask32, mask32, mask32]
  rfl

/-- The halves of the seed are folded below 32 bits. -/
theorem fold_lt {value mask shift : Nat} (fits : mask / 2 ^ shift < 2 ^ 32)
    (bounded : value ≤ mask) :
    (value &&& 0x00000000FFFFFFFF) ||| ((value &&& 0xFFFFFFFF00000000) >>> shift) < 2 ^ 32 := by
  apply Nat.or_lt_two_pow
  · rw [mask32]
    exact Nat.mod_lt _ (by decide)
  · rw [Nat.shiftRight_eq_div_pow]
    exact (Nat.div_le_div_right (Nat.and_le_left.trans bounded)).trans_lt fits

/-- Both sides accept the same seeds. -/
theorem python_init (seedBase : Nat) :
    Rng.init seedBase = (rngSeedInit seedBase).map RngSeed.python := by
  have low := @fold_lt (seedBase &&& 0x5555555555555555) 0x5555555555555555 31 (by decide)
    Nat.and_le_right
  have high := @fold_lt (seedBase &&& 0xAAAAAAAAAAAAAAAA) 0xAAAAAAAAAAAAAAAA 33 (by decide)
    Nat.and_le_right
  rw [Rng.init, rngSeedInit, Nat.mod_eq_of_lt low, Nat.mod_eq_of_lt high]
  split
  · rfl
  · rfl

theorem rngSeedInit_alive (accepted : rngSeedInit seedBase = .ok seed) : seed.Alive := by
  rw [rngSeedInit] at accepted
  split at accepted
  case isTrue => cases accepted
  case isFalse nonzero =>
    cases accepted
    rw [not_or] at nonzero
    exact ⟨nonzero.1, nonzero.2, Nat.mod_lt _ (by decide), Nat.mod_lt _ (by decide)⟩

/-- The loop of the server appends what the loop of the plugin stores. -/
theorem python_fill (count : Nat) (numbers : List Nat) (seed : RngSeed) (indices : List Nat)
    (length : indices.length = count) :
    (indices.foldl (fun (state : List Nat × Rng) _ =>
      (state.1 ++ [state.2.get.1], state.2.get.2)) (numbers, seed.python)).1 =
        numbers ++ rngGets count seed := by
  induction indices generalizing count numbers seed with
  | nil =>
    subst length
    exact (append_nil numbers).symm
  | cons index indices ih =>
    subst length
    rw [foldl_cons, python_get, ih indices.length _ _ rfl, length_cons, rngGets, append_assoc,
      singleton_append]

/-- The tables are the same. -/
theorem python_table (fits : hashLineSize * hashCount < sizeModulus) :
    Hash.init seedBase hashCount hashLineSize =
      (genHashTable seedBase hashCount hashLineSize).map (Hash.mk hashLineSize) := by
  rw [Hash.init, genHashTable, python_init, Nat.mod_eq_of_lt fits]
  cases rngSeedInit seedBase with
  | error fault => rfl
  | ok seed =>
    have filled := python_fill (hashLineSize * hashCount) [] seed
      (List.range (hashLineSize * hashCount)) length_range
    rw [nil_append] at filled
    exact congrArg (fun table => Except.ok (Hash.mk hashLineSize table)) filled

theorem rngGets_small (count : Nat) (seed : RngSeed) :
    ∀ number ∈ rngGets count seed, number < 2 ^ 32 := by
  induction count generalizing seed with
  | zero => exact fun number member => absurd member not_mem_nil
  | succ count ih =>
    intro number member
    rcases mem_cons.mp member with rfl | later
    · exact Nat.mod_lt _ (by decide)
    · exact ih _ number later

theorem length_rngGets (count : Nat) (seed : RngSeed) : (rngGets count seed).length = count := by
  induction count generalizing seed with
  | zero => rfl
  | succ count ih => rw [rngGets, length_cons, ih]

/-- The table of the plugin holds what the configuration looks up. -/
theorem rngGets_getElem? {count index : Nat} (inside : index < count) (seed : RngSeed) :
    (rngGets count seed)[index]? = some (genHashData seed index) := by
  have shifted : ∀ (seed : RngSeed) index, rngAfter seed (index + 1) = rngAfter (rngStep seed) index := by
    intro seed index
    induction index with
    | zero => rfl
    | succ index ih =>
      rw [rngAfter, ih]
      rfl
  induction count generalizing seed index with
  | zero => omega
  | succ count ih =>
    cases index with
    | zero => rfl
    | succ index =>
      rw [rngGets, List.getElem?_cons_succ, ih (Nat.lt_of_succ_lt_succ inside), genHashData,
        genHashData, shifted]

/-- The values of the two hashes agree from any place on. -/
theorem python_hash {hasher : Hash} (narrow : ∀ number ∈ hasher.hashData, number < 2 ^ 32)
    (key : Bytes) (start result : Nat) (small : result < 2 ^ 32) :
    (key.foldlM hasher.pick (result, start)).map Prod.fst =
        hashTable hasher.hashData start result key ∧
      ∀ value, hashTable hasher.hashData start result key = some value → value < 2 ^ 32 := by
  induction key generalizing start result with
  | nil =>
    refine ⟨rfl, ?_⟩
    rintro value ⟨⟩
    exact small
  | cons byte key ih =>
    rw [foldlM_cons, hashTable, Hash.pick]
    dsimp only
    cases found : hasher.hashData[start + byte.toNat]? with
    | none => exact ⟨rfl, fun value impossible => nomatch impossible⟩
    | some number =>
      have below : result ^^^ number < 2 ^ 32 :=
        Nat.xor_lt_two_pow small (narrow number (mem_of_getElem? found))
      have later := ih (start + 256) (result ^^^ number) below
      show Option.map Prod.fst (key.foldlM hasher.pick (result ^^^ number, start + 256)) =
          hashTable hasher.hashData (start + 256) ((result ^^^ number) % 2 ^ 32) key ∧
        ∀ value, hashTable hasher.hashData (start + 256) ((result ^^^ number) % 2 ^ 32) key =
          some value → value < 2 ^ 32
      rw [Nat.mod_eq_of_lt below]
      exact later

/-- The configuration of the plugin hashes like its table. -/
theorem hash_table {table : List Nat} {hashData : Nat → Nat}
    (filled : ∀ index number, table[index]? = some number → hashData index = number)
    (narrow : ∀ number ∈ table, number < 2 ^ 32) {start value : Nat} (key : Bytes)
    (position result : Nat) (small : result < 2 ^ 32)
    (hashed : hashTable table (start + 256 * position) result key = some value) :
    (key.zipIdx position).foldl (fun result (byte, position) =>
      result ^^^ hashData (start + 256 * position + byte.toNat)) result = value := by
  induction key generalizing position result with
  | nil =>
    cases hashed
    rfl
  | cons byte key ih =>
    rw [hashTable] at hashed
    obtain ⟨number, found, rest⟩ := bind_eq_some_iff.mp hashed
    have below : result ^^^ number < 2 ^ 32 :=
      Nat.xor_lt_two_pow small (narrow number (mem_of_getElem? found))
    rw [Nat.mod_eq_of_lt below, Nat.add_assoc, ← Nat.mul_succ] at rest
    rw [zipIdx_cons, foldl_cons]
    dsimp only
    rw [filled _ number found]
    exact ih (position + 1) _ below rest

/-- With the same seed and sizes, both sides generate the same table and hash each key to the same
value. -/
theorem hashes_agree (fits : hashLineSize * hashCount * 4 < sizeModulus)
    (accepted : rngSeedInit seedBase = .ok seed) :
    ∃ hasher, Hash.init seedBase hashCount hashLineSize = .ok hasher ∧
      genHashTable seedBase hashCount hashLineSize = .ok hasher.hashData ∧
      hasher.hashData.length = hashLineSize * hashCount ∧
      (∀ index, (rngAfter seed index).low ≠ 0 ∧ (rngAfter seed index).high ≠ 0) ∧
      ∀ key number, hasher.get key number =
          hashTable hasher.hashData (number * hashLineSize) 0 key ∧
        ∀ value, hasher.get key number = some value → value < 2 ^ 32 ∧
          ∀ bucketCount, hash (genHashData seed) (number * hashLineSize) key % bucketCount =
            value % bucketCount := by
  have inside : hashLineSize * hashCount < sizeModulus := by omega
  have generated : genHashTable seedBase hashCount hashLineSize =
      .ok (rngGets (hashLineSize * hashCount) seed) := by
    rw [genHashTable, accepted, Nat.mod_eq_of_lt inside]
    rfl
  have alive := rngSeedInit_alive accepted
  have narrow := rngGets_small (hashLineSize * hashCount) seed
  refine ⟨⟨hashLineSize, rngGets (hashLineSize * hashCount) seed⟩, ?_, generated, ?_, ?_, ?_⟩
  · rw [python_table inside, generated]
    rfl
  · exact length_rngGets _ seed
  · exact fun index => ⟨(alive.after index).low, (alive.after index).high⟩
  · intro key number
    obtain ⟨same, small⟩ := @python_hash ⟨hashLineSize, rngGets (hashLineSize * hashCount) seed⟩
      narrow key (number * hashLineSize) 0 (by decide)
    refine ⟨same, ?_⟩
    intro value hashed
    have found := same.symm.trans hashed
    refine ⟨small value found, ?_⟩
    intro bucketCount
    have filled : ∀ index number, (rngGets (hashLineSize * hashCount) seed)[index]? = some number →
        genHashData seed index = number := by
      intro index number there
      have before := (List.getElem?_eq_some_iff.mp there).1
      rw [length_rngGets] at before
      exact Option.some.inj ((rngGets_getElem? before seed).symm.trans there)
    have folded := @hash_table _ (genHashData seed) filled narrow (number * hashLineSize) value key 0
      0 (by decide) found
    rw [hash, folded, Nat.mod_eq_of_lt (small value found)]

/-- The seed of the server is accepted. -/
theorem hashes_agree_server :
    ∃ hasher, Hash.init 872945724987 1 512 = .ok hasher ∧
      genHashTable 872945724987 1 512 = .ok hasher.hashData := by
  obtain ⟨hasher, python, plugin, -⟩ :=
    @hashes_agree ⟨353633427, 713730671⟩ 872945724987 1 512 (by decide) (by decide)
  exact ⟨hasher, python, plugin⟩

end Ucollect.Buckets
