import Ucollect.Proof.Activation.Messages

/-
This file proves which errors about missing plugins are sent as the protocol documents them.
-/

namespace Ucollect.Core
open Library List Option Function

/-- The report has the documented bytes only, and they tell the name and the hash. -/
def Naming.Follows (naming : Naming) (report : List SentByte) : Prop :=
  report = naming.documented.map .written ∧ readReport naming.documented = some (naming, [])

/-- The cells of the front are written, and the others are not. -/
def Buffer.filled (front : Bytes) (room : Nat) : Buffer :=
  ⟨front.map some ++ List.replicate room none⟩

section Cells

variable {front bytes : Bytes} {room : Nat}

theorem allocate_eq (size : Nat) : Buffer.allocate size = Buffer.filled [] size := by
  simp [Buffer.allocate, Buffer.filled]

/-- The next bytes go behind the front. -/
theorem store_filled {position rest : Nat} (behind : position = front.length)
    (enough : room = bytes.length + rest) :
    (Buffer.filled front room).store position bytes = some (Buffer.filled (front ++ bytes) rest) := by
  subst behind enough
  simp [Buffer.store, Buffer.filled, drop_append]

/-- The front is written once more. -/
theorem store_again {rest : Nat} (longer : front.length ≤ bytes.length)
    (enough : front.length + room = bytes.length + rest) :
    (Buffer.filled front room).store 0 bytes = some (Buffer.filled bytes rest) := by
  have left : room - (bytes.length - front.length) = rest := by omega
  simp [Buffer.store, Buffer.filled, drop_append, longer, left]
  omega

theorem sent_filled (start size : Nat) :
    (Buffer.filled front room).sent start size =
      ((front.drop start).map SentByte.written ++
        List.replicate (room - (start - front.length)) SentByte.leftOver ++
        List.replicate size SentByte.outside).take size := by
  simp [Buffer.sent, Buffer.filled, drop_append, comp_def, SentByte.ofCell]

end Cells

section Reports

variable {platform : Platform} {name hash : Bytes}

/-- A `size_t` of more than 32 bits makes the payload too long. -/
theorem routeReport_eq (fits : 1 + lengthSize + name.length < 2 ^ 32) :
    routeReport platform name = some ((letter 'P' :: renderString name).map SentByte.written ++
      List.replicate (platform.sizeofSize - lengthSize) SentByte.leftOver) := by
  rw [lengthSize] at fits
  obtain ⟨extra, width⟩ : ∃ extra, platform.sizeofSize = 4 + extra := by
    cases platform
    · exact ⟨0, rfl⟩
    · exact ⟨4, rfl⟩
  have exact : (1 + platform.sizeofSize + name.length) % 2 ^ platform.sizeBits =
      1 + 4 + extra + name.length := by
    rw [width, Nat.mod_eq_of_lt]
    · omega
    · cases platform <;> simp only [Platform.sizeofSize, Platform.sizeBits] at width ⊢ <;> omega
  rw [routeReport, exact, allocate_eq]
  rw [@store_filled [] [letter 'P'] _ 0 (4 + extra + name.length) rfl (by simp; omega), bind_some,
    @store_filled _ (word32 name.length) _ 1 (extra + name.length) rfl
      (by simp [word32]; omega), bind_some, @store_filled _ name _ (1 + lengthSize) extra rfl
      (by omega),
    map_some, sent_filled, take_left' (by simp [word32]; omega)]
  simp [renderString, width, lengthSize]

/-- The header is lost, and the message ends behind the buffer. -/
theorem activationReport_eq (fits : 1 + lengthSize + name.length + hashSize < 2 ^ 32)
    (size : hash.length = hashSize) :
    activationReport platform name hash =
      some (((renderString name ++ hash).drop 1).map SentByte.written ++ [.leftOver, .outside]) := by
  rw [lengthSize, hashSize] at fits
  have exact : (1 + lengthSize + name.length + hashSize) % 2 ^ platform.sizeBits =
      1 + 4 + name.length + 16 := by
    rw [Nat.mod_eq_of_lt]
    · rfl
    · cases platform <;> simp only [lengthSize, hashSize, Platform.sizeofSize, Platform.sizeBits] <;>
        omega
  have short : name.length < 2 ^ 32 := by omega
  have rendered : uplinkRenderString name ⟨[], 1 + 4 + name.length + 16 - 1⟩ =
      .ok ⟨renderString name, 16⟩ := by
    rw [Activation.uplinkRenderString_eq, Activation.shortened_eq short, Activation.put_eq_ok]
    exact ⟨rfl, by simp [renderString, word32]; omega⟩
  rw [activationReport, exact, allocate_eq,
    @store_filled [] [letter 'A'] _ 0 (4 + name.length + 16) rfl (by simp; omega),
    bind_some, rendered]
  simp only [ne_eq, not_true_eq_false, if_false, hashSize]
  have long : (renderString name).length = 4 + name.length := by simp [renderString, word32]; omega
  rw [@store_again _ (renderString name) _ 17 (by simp; omega) (by simp; omega), bind_some,
    @store_filled _ hash _ _ 1 rfl (by rw [size, hashSize]), map_some, sent_filled]
  have start : (List.drop 1 (renderString name ++ hash)).length = 3 + name.length + 16 := by
    simp [long, size, hashSize]
    omega
  have sent : 1 + 4 + name.length + 16 = (3 + name.length + 16) + 2 := by omega
  have behind : 1 - (renderString name ++ hash).length = 0 := by
    simp [long]
    omega
  rw [behind, sent]
  generalize List.drop 1 (renderString name ++ hash) = front at start
  simp [take_append, start]

/-- A name of the language C is not longer. -/
theorem length_cString (bytes : Bytes) : (cString bytes).length ≤ bytes.length :=
  (List.takeWhile_prefix _).length_le

/-- The cut name encodes like the whole one only when nothing is cut. -/
theorem renderString_cString_iff {name : Bytes} :
    renderString (cString name) = renderString name ↔ 0 ∉ name := by
  constructor
  · intro same zero
    have size := congrArg List.length same
    simp only [renderString, length_append, word32, length_cons, length_nil] at size
    have length : (cString name).length = name.length := by omega
    have whole : cString name = name := (List.takeWhile_prefix _).eq_of_length length
    rw [cString, takeWhile_eq_self_iff] at whole
    simpa using whole 0 zero
  · intro nonzero
    rw [Activation.cString_eq nonzero]

/-- Bytes that nobody wrote do not belong to a payload. -/
theorem ne_map_written {cell : SentByte} {report : List SentByte} {payload : Bytes}
    (foreign : ∀ byte, cell ≠ .written byte) (sent : cell ∈ report) :
    report ≠ payload.map SentByte.written := by
  intro same
  rw [same] at sent
  obtain ⟨byte, -, here⟩ := List.mem_map.mp sent
  exact foreign byte here.symm

theorem map_written_inj {first second : Bytes} :
    first.map SentByte.written = second.map SentByte.written ↔ first = second :=
  (map_injective_iff.mpr fun _ _ same => SentByte.written.inj same).eq_iff

theorem readReport_documented {naming : Naming} (fits : naming.Fits) :
    readReport naming.documented = some (naming, []) := by
  cases naming with
  | routed name =>
    rw [Naming.Fits, lengthSize] at fits
    have parsed := @uplinkParseString_append name [] (by omega)
    rw [append_nil] at parsed
    simp [Naming.documented, readReport, parsed]
  | activation name hash =>
    obtain ⟨fits, size⟩ := fits
    rw [lengthSize, hashSize] at fits
    have parsed := @uplinkParseString_append name hash (by omega)
    have cutHash := cut_append [] size
    rw [append_nil] at cutHash
    have other : letter 'A' ≠ letter 'P' := by decide
    simp [Naming.documented, readReport, parsed, cutHash, other]

end Reports

/-- Only a name that is routed to a client of 32 bits is reported as documented, and no zero byte may
cut it. -/
theorem report_documented (platform : Platform) (plugins : List Plugin) (naming : Naming)
    (fits : naming.Fits) (unknown : naming.found plugins = false) :
    ∃ report, naming.report platform plugins = some report ∧
      (naming.Follows report ↔
        platform = .bits32 ∧ ∃ name, naming = .routed name ∧ 0 ∉ name) := by
  have decoded := readReport_documented fits
  simp only [Naming.report.eq_def, unknown, Bool.false_eq_true, if_false, Naming.Follows, decoded,
    and_true]
  cases naming with
  | routed name =>
    have shorter := length_cString name
    refine ⟨_, routeReport_eq (by rw [Naming.Fits] at fits; omega), ?_⟩
    cases platform with
    | bits32 =>
      simp [Platform.sizeofSize, lengthSize, Naming.documented, map_written_inj,
        renderString_cString_iff]
    | bits64 =>
      have sent : SentByte.leftOver ∈
          (letter 'P' :: renderString (cString name)).map SentByte.written ++
            List.replicate 4 SentByte.leftOver := by simp
      have extra : Platform.bits64.sizeofSize - lengthSize = 4 := rfl
      simpa [extra] using ne_map_written (fun byte same => by cases same) sent
  | activation name hash =>
    have shorter := length_cString name
    refine ⟨_, activationReport_eq (by rw [Naming.Fits] at fits; omega) fits.2, ?_⟩
    have sent : SentByte.outside ∈
        ((renderString (cString name) ++ hash).drop 1).map SentByte.written ++
          [.leftOver, .outside] := by simp
    simpa using ne_map_written (fun byte same => by cases same) sent

/-- The name `no` is unknown to a router without plugins. -/
theorem report_documented_sample :
    ∃ report, (Naming.routed [110, 111]).report .bits32 [] = some report ∧
      ((Naming.routed [110, 111]).Follows report ↔
        Platform.bits32 = .bits32 ∧ ∃ name, Naming.routed [110, 111] = .routed name ∧ 0 ∉ name) :=
  report_documented .bits32 [] (.routed [110, 111]) (by simp [Naming.Fits, lengthSize]) rfl

/-- A server asks a machine of 64 bits to activate the plugin `no`. -/
theorem report_documented_not :
    ¬∀ (platform : Platform) (plugins : List Plugin) (naming : Naming), naming.Fits →
      naming.found plugins = false →
        ∃ report, naming.report platform plugins = some report ∧ naming.Follows report := by
  intro documented
  obtain ⟨report, sent, follows, -⟩ := documented .bits64 []
    (.activation [110, 111] (List.replicate 16 7)) ⟨by decide, rfl⟩ rfl
  have last : (Naming.activation [110, 111] (List.replicate 16 7)).report .bits64 [] =
      some (([0, 0, 2, 110, 111] ++ List.replicate 16 7 : Bytes).map SentByte.written ++
        [.leftOver, .outside]) := by decide
  rw [last, some_inj] at sent
  rw [← sent] at follows
  exact absurd follows (by decide)

end Ucollect.Core
