import Ucollect.Construction.Master.Versions
import Ucollect.Proof.Uplink.Format

/-
This file proves that the lists of plugins and their activations are read as they were sent.
-/

namespace Ucollect.Activation
open Library Core Master List Option

/-- These are the sizes of the fields of a plugin. -/
structure Typed (plugin : Plugin) : Prop where
  version : plugin.version < 2 ^ 16
  hash : plugin.hash.length = hashSize

/-- The names fit into strings of a message. -/
structure Named (plugin : Plugin) : Prop where
  name : plugin.name.length < 2 ^ 32
  libname : plugin.libname.length < 2 ^ 32

/-- The server has to know this about a plugin. -/
def announced (plugin : Plugin) : Version where
  name := plugin.name
  version := plugin.version
  hash := plugin.hash
  activity := plugin.active
  lib := plugin.libname

section Building

/-- The bytes are written and take their room. -/
structure Adds (output : Output) (bytes : Bytes) (next : Output) : Prop where
  written : next.written = output.written ++ bytes
  room : next.room + bytes.length = output.room

variable {output next : Output} {bytes : Bytes}

/-- Two parts are added behind each other. -/
theorem adds_append {first second : Bytes} :
    Adds output (first ++ second) next ↔
      ∃ middle, Adds output first middle ∧ Adds middle second next := by
  constructor
  · intro adds
    have room := adds.room
    rw [length_append] at room
    refine ⟨⟨output.written ++ first, next.room + second.length⟩, ⟨rfl, ?_⟩, ⟨?_, rfl⟩⟩
    · simp only
      omega
    · rw [adds.written, append_assoc]
  · rintro ⟨middle, before, after⟩
    have beforeRoom := before.room
    have afterRoom := after.room
    refine ⟨?_, ?_⟩
    · rw [after.written, before.written, append_assoc]
    · rw [length_append]
      omega

/-- The output takes the bytes exactly when they fit. -/
theorem put_eq_ok : output.put bytes = .ok next ↔ Adds output bytes next := by
  unfold Output.put
  constructor
  · intro done
    split at done
    · cases done
    · next enough =>
        cases done
        exact ⟨rfl, by simp only; omega⟩
  · intro adds
    have room := adds.room
    rw [if_neg (by omega)]
    cases next with
    | mk written rest =>
      have same : rest = output.room - bytes.length := by
        simp only at room
        omega
      rw [same, ← adds.written]

theorem copy_eq_ok : output.copy bytes = .ok next ↔ Adds output bytes next := by
  rw [← put_eq_ok]
  simp only [Output.copy, Output.put]
  split <;> simp

/-- Only the low bits of the length decide how much is rendered. -/
def shortened (string : Bytes) : Bytes := string.take (string.length % 2 ^ 32)

/-- A short string is sent as it is. -/
theorem shortened_eq {string : Bytes} (small : string.length < 2 ^ 32) :
    shortened string = string := by
  rw [shortened, Nat.mod_eq_of_lt small, take_length]

/-- A long string loses a part. -/
theorem shortened_lt {string : Bytes} (large : ¬ string.length < 2 ^ 32) :
    (shortened string).length < string.length := by
  have cut : (shortened string).length ≤ string.length % 2 ^ 32 := length_take_le _ _
  have below : string.length % 2 ^ 32 < 2 ^ 32 := Nat.mod_lt _ (by decide)
  omega

theorem shortened_le (string : Bytes) : (shortened string).length ≤ string.length :=
  length_take_le' _ _

/-- The string is cut to its 32-bit length. -/
theorem uplinkRenderString_eq (string : Bytes) (output : Output) :
    uplinkRenderString string output = output.put (renderString (shortened string)) := by
  have rendered := vUplinkRender_matching [.string (shortened string)] output
  rw [encodings, flatMap_singleton] at rendered
  exact rendered

/-- These names are rendered. -/
def cutNames (plugin : Plugin) : Plugin :=
  { plugin with name := shortened plugin.name, libname := shortened plugin.libname }

/-- A result comes out of both steps. -/
theorem bind_eq_ok {A B : Type} {first : Except Fault A} {second : A → Except Fault B} {result : B} :
    (first >>= second) = .ok result ↔ ∃ middle, first = .ok middle ∧ second middle = .ok result := by
  cases first with
  | error fault => exact ⟨fun impossible => (by cases impossible), fun ⟨_, impossible, _⟩ => (by cases impossible)⟩
  | ok middle =>
    constructor
    · intro done
      exact ⟨middle, rfl, done⟩
    · rintro ⟨other, same, done⟩
      cases same
      exact done

theorem describe_eq (plugin : Plugin) : plugin.describe =
    renderString plugin.name ++ (word16 plugin.version ++ (plugin.hash ++
      (renderString plugin.libname ++ [letter (if plugin.active then 'A' else 'I')]))) := by
  simp only [Plugin.describe, append_assoc]

variable {plugin : Plugin}

/-- A plugin is rendered when its description fits. -/
theorem render_eq_ok :
    plugin.render output = .ok next ↔ Adds output (cutNames plugin).describe next := by
  rw [Plugin.render, bind_eq_ok, describe_eq, adds_append]
  simp only [uplinkRenderString_eq, put_eq_ok]
  apply exists_congr
  intro named
  apply and_congr_right
  intro _
  have checked : (if named.room < 2 then Except.error Fault.sanity
      else named.copy (word16 plugin.version) >>= fun output =>
        output.copy plugin.hash >>= fun output =>
          output.put (renderString (shortened plugin.libname)) >>= fun output =>
            output.copy [letter (if plugin.active then 'A' else 'I')]) = .ok next ↔
      (named.copy (word16 plugin.version) >>= fun output =>
        output.copy plugin.hash >>= fun output =>
          output.put (renderString (shortened plugin.libname)) >>= fun output =>
            output.copy [letter (if plugin.active then 'A' else 'I')]) = .ok next := by
    split
    · next short =>
        have full : named.copy (word16 plugin.version) = .error .overrun := if_pos short
        rw [full]
        constructor <;> intro impossible <;> cases impossible
    · rfl
  rw [checked]
  simp only [bind_eq_ok, copy_eq_ok, put_eq_ok, adds_append]
  rfl

variable {plugins : List Plugin}

/-- The plugins are rendered when all the descriptions fit. -/
theorem renderPlugins_eq_ok :
    renderPlugins plugins output = .ok next ↔
      Adds output (plugins.flatMap fun plugin => (cutNames plugin).describe) next := by
  induction plugins generalizing output with
  | nil =>
    rw [renderPlugins, flatMap_nil]
    constructor
    · intro same
      cases same
      exact ⟨(append_nil _).symm, rfl⟩
    · rintro ⟨written, room⟩
      rw [append_nil] at written
      cases output
      cases next
      cases written
      cases room
      rfl
  | cons plugin plugins ih =>
    rw [renderPlugins, bind_eq_ok, flatMap_cons, adds_append]
    simp only [render_eq_ok, ih]

/-- The computed size is the size of the description. -/
theorem describedSize_eq (plugin : Plugin) (typed : Typed plugin) :
    plugin.describe.length = plugin.describedSize := by
  simp only [describe_eq, length_append, renderString, typed.hash, Plugin.describedSize, word32,
    word16, lengthSize, length_cons, length_nil]
  omega

/-- The description loses what the names lose. -/
theorem describe_cutNames_length (typed : Typed plugin) :
    (cutNames plugin).describe.length + plugin.name.length + plugin.libname.length =
      plugin.describedSize + (shortened plugin.name).length +
        (shortened plugin.libname).length := by
  have cut : Typed (cutNames plugin) := ⟨typed.version, typed.hash⟩
  rw [describedSize_eq _ cut]
  simp only [Plugin.describedSize, cutNames]
  omega

theorem describe_cutNames_le (typed : Typed plugin) :
    (cutNames plugin).describe.length ≤ plugin.describedSize := by
  have sizes := describe_cutNames_length typed
  have name := shortened_le plugin.name
  have libname := shortened_le plugin.libname
  omega

/-- A description of the computed size has its whole names. -/
theorem named_of_length (typed : Typed plugin)
    (whole : (cutNames plugin).describe.length = plugin.describedSize) : Named plugin := by
  have sizes := describe_cutNames_length typed
  have name := shortened_le plugin.name
  have libname := shortened_le plugin.libname
  constructor
  · by_contra large
    have cut := shortened_lt large
    omega
  · by_contra large
    have cut := shortened_lt large
    omega

/-- Short names are not cut. -/
theorem cutNames_eq (named : Named plugin) : cutNames plugin = plugin := by
  rw [cutNames, shortened_eq named.name, shortened_eq named.libname]

theorem flatMap_cutNames_le (typed : ∀ plugin ∈ plugins, Typed plugin) :
    (plugins.flatMap fun plugin => (cutNames plugin).describe).length ≤
      (plugins.map Plugin.describedSize).sum := by
  rw [length_flatMap]
  exact sum_le_sum fun plugin member => describe_cutNames_le (typed plugin member)

/-- If the total is right, no name was cut. -/
theorem named_of_total (typed : ∀ plugin ∈ plugins, Typed plugin)
    (whole : (plugins.flatMap fun plugin => (cutNames plugin).describe).length =
      (plugins.map Plugin.describedSize).sum) : ∀ plugin ∈ plugins, Named plugin := by
  induction plugins with
  | nil => exact fun _ impossible => absurd impossible not_mem_nil
  | cons plugin plugins ih =>
    rw [forall_mem_cons] at typed ⊢
    rw [flatMap_cons, length_append, map_cons, sum_cons] at whole
    have first := describe_cutNames_le typed.1
    have rest := flatMap_cutNames_le typed.2
    exact ⟨named_of_length typed.1 (by omega), ih typed.2 (by omega)⟩

theorem flatMap_cutNames (named : ∀ plugin ∈ plugins, Named plugin) :
    (plugins.flatMap fun plugin => (cutNames plugin).describe) =
      plugins.flatMap Plugin.describe := by
  apply flatMap_congr
  intro plugin member
  rw [cutNames_eq (named plugin member)]

/-- A list that fits into the memory gets its message when no name is too long. -/
theorem pluginVersions_eq_ok {sizeBits : Nat} {message : Bytes}
    (typed : ∀ plugin ∈ plugins, Typed plugin)
    (fits : (plugins.map Plugin.describedSize).sum < 2 ^ sizeBits) :
    pluginVersions sizeBits plugins = .ok message ↔
      (∀ plugin ∈ plugins, Named plugin) ∧ message = plugins.flatMap Plugin.describe := by
  rw [pluginVersions, Nat.mod_eq_of_lt fits, bind_eq_ok]
  simp only [renderPlugins_eq_ok]
  constructor
  · rintro ⟨output, adds, done⟩
    split at done
    · next empty =>
        have room := adds.room
        rw [empty, Nat.zero_add] at room
        have named := named_of_total typed room
        have written := adds.written
        rw [flatMap_cutNames named] at written
        cases done
        exact ⟨named, written⟩
    · cases done
  · rintro ⟨named, rfl⟩
    refine ⟨⟨plugins.flatMap Plugin.describe, 0⟩, ⟨?_, ?_⟩, if_pos rfl⟩
    · rw [flatMap_cutNames named]
      rfl
    · rw [flatMap_cutNames named, length_flatMap, Nat.zero_add]
      congr 1
      exact map_congr_left fun plugin member => describedSize_eq plugin (typed plugin member)

end Building

section Reading

/-- A string that was rendered is extracted. -/
theorem extractString_append {string : Bytes} (rest : Bytes) (small : string.length < 2 ^ 32) :
    extractString (renderString string ++ rest) = some (string, rest) := by
  have size : (word32 string.length).length = 4 := rfl
  have enough : ¬ (renderString string ++ rest).length < 4 := by
    simp only [renderString, length_append, size]
    omega
  have front : (renderString string ++ rest).take 4 = word32 string.length := by
    rw [renderString, append_assoc, take_left' size]
  have back : (renderString string ++ rest).drop 4 = string ++ rest := by
    rw [renderString, append_assoc, drop_left' size]
  simp only [extractString, if_neg enough, front, bigEndian_word32 small, Nat.add_comm _ 4,
    ← drop_drop, back, take_left, drop_left]

/-- A version and a hash that were packed are unpacked. -/
theorem unpackVersion_append {version : Nat} {hash : Bytes} (rest : Bytes)
    (small : version < 2 ^ 16) (size : hash.length = hashSize) :
    unpackVersion (word16 version ++ (hash ++ rest)) = some (version, hash, rest) := by
  have size : hash.length = 16 := size
  have width : (word16 version).length = 2 := rfl
  have enough : ¬ (word16 version ++ (hash ++ rest)).length < 18 := by
    simp only [length_append, width, size]
    omega
  have last : (word16 version ++ (hash ++ rest)).drop 18 = rest := by
    rw [← append_assoc]
    apply drop_left'
    rw [length_append, width, size]
  rw [unpackVersion, if_neg enough, take_left' width, drop_left' width, take_left' size, last,
    bigEndian_word16 small]

/-- The server reads what the client describes. -/
theorem readVersion_describe {plugin : Plugin} (typed : Typed plugin) (named : Named plugin)
    (rest : Bytes) : readVersion (plugin.describe ++ rest) = some (announced plugin, rest) := by
  rw [describe_eq]
  simp only [append_assoc, readVersion, extractString_append _ named.name, bind_some,
    unpackVersion_append _ typed.version typed.hash, extractString_append _ named.libname,
    singleton_append, announced]
  cases plugin.active <;> rfl

/-- A plugin with a new name comes last. -/
theorem insertVersion_new {versions : List Version} {version : Version}
    (fresh : version.name ∉ versions.map Version.name) :
    insertVersion versions version = versions ++ [version] := by
  rw [insertVersion, if_neg]
  intro found
  obtain ⟨other, member, same⟩ := List.any_eq_true.mp found
  exact fresh (List.mem_map.mpr ⟨other, member, beq_iff_eq.mp same⟩)

theorem describe_ne_nil (plugin : Plugin) : plugin.describe ≠ [] := by
  rw [describe_eq, renderString, word32]
  exact cons_ne_nil _ _

/-- The names of the rest are new in the dictionary. -/
theorem readVersions_describe {plugins : List Plugin} (versions : List Version) (fuel : Nat)
    (typed : ∀ plugin ∈ plugins, Typed plugin) (named : ∀ plugin ∈ plugins, Named plugin)
    (distinct : (versions.map Version.name ++ plugins.map Plugin.name).Nodup)
    (enough : plugins.length ≤ fuel) :
    readVersions fuel (plugins.flatMap Plugin.describe) versions =
      some (versions ++ plugins.map announced) := by
  induction plugins generalizing versions fuel with
  | nil =>
    rw [flatMap_nil, map_nil, append_nil]
    cases fuel <;> rfl
  | cons plugin plugins ih =>
    rw [forall_mem_cons] at typed named
    obtain ⟨fuel, rfl⟩ := Nat.exists_eq_add_of_le' (le_trans (Nat.succ_le_succ (Nat.zero_le _)) enough)
    have read := readVersion_describe typed.1 named.1 (plugins.flatMap Plugin.describe)
    have fresh : (announced plugin).name ∉ versions.map Version.name := by
      intro member
      rw [nodup_append] at distinct
      exact distinct.2.2 _ member _ mem_cons_self rfl
    rw [flatMap_cons]
    generalize message : plugin.describe ++ plugins.flatMap Plugin.describe = bytes at read
    match bytes with
    | [] => exact absurd (append_eq_nil_iff.mp message).1 (describe_ne_nil plugin)
    | byte :: bytes =>
      rw [readVersions, read]
      change readVersions fuel _ (insertVersion versions (announced plugin)) = _
      rw [insertVersion_new fresh, ih _ fuel typed.2 named.2 ?_ (by simpa using enough)]
      · rw [map_cons, append_assoc, singleton_append]
      · rw [map_append, map_singleton, append_assoc]
        exact distinct

/-- The server knows all the plugins in the order of the client. -/
theorem handledVersions_describe {plugins : List Plugin}
    (typed : ∀ plugin ∈ plugins, Typed plugin) (named : ∀ plugin ∈ plugins, Named plugin)
    (distinct : (plugins.map Plugin.name).Nodup) :
    handledVersions (plugins.flatMap Plugin.describe) = some (plugins.map announced) := by
  have enough : plugins.length ≤ (plugins.flatMap Plugin.describe).length := by
    rw [length_flatMap]
    calc plugins.length = (plugins.map fun _ => 1).sum := by simp
      _ ≤ _ := sum_le_sum fun plugin _ =>
          length_pos_iff.mpr (describe_ne_nil plugin)
  have read := readVersions_describe [] _ typed named distinct enough
  rwa [nil_append] at read

end Reading

section Answering

/-- The client has to know this about a change. -/
def asked (change : Change) : Core.Activation := ⟨change.name, change.hash, change.activate⟩

/-- The name is a string of the client, and the hash has its size. -/
structure Askable (change : Change) : Prop where
  name : 0 ∉ change.name
  hash : change.hash.length = hashSize

/-- The two parsers of the activations agree. -/
theorem readActivations_fst (amount : Nat) (buffer : Bytes) :
    parseActivations amount buffer = (readActivations amount buffer).map Prod.fst := by
  induction amount generalizing buffer with
  | zero => rfl
  | succ amount ih =>
    rw [parseActivations, readActivations]
    cases uplinkParseString buffer with
    | none => rfl
    | some parsed =>
      simp only [ih]
      split
      · rfl
      · cases readActivations amount (parsed.2.drop (hashSize + 1)) <;> rfl

theorem cString_eq {string : Bytes} (nonzero : 0 ∉ string) : cString string = string := by
  rw [cString, takeWhile_eq_self_iff]
  intro byte member
  simp only [ne_eq, decide_eq_true_eq]
  exact fun zero => nonzero (zero ▸ member)

/-- A hash of the right size is packed as it is. -/
theorem packHash_eq {hash : Bytes} (size : hash.length = hashSize) : packHash hash = hash := by
  have size : hash.length = 16 := size
  rw [packHash, take_left' size]

/-- A change is packed when its name fits. -/
theorem packChange_eq_some {change : Change} {record : Bytes} (askable : Askable change) :
    packChange change = some record ↔ change.name.length < 2 ^ 32 ∧
      record = renderString change.name ++
        (change.hash ++ [letter (if change.activate then 'A' else 'I')]) := by
  rw [packChange, formatString, packHash_eq askable.hash]
  by_cases small : change.name.length < 2 ^ 32
  · rw [if_pos small]
    simp only [map_some, Option.some.injEq, small, true_and, append_assoc, renderString]
    exact eq_comm
  · rw [if_neg small]
    simp only [map_none, small, false_and, reduceCtorEq]

variable {changes : List Change}

/-- The client reads the changes that the server packs. -/
theorem readActivations_packChanges {records : Bytes} (askable : ∀ change ∈ changes, Askable change)
    (packed : packChanges changes = some records) :
    readActivations changes.length records = some (changes.map asked, []) := by
  induction changes generalizing records with
  | nil =>
    cases packed
    rfl
  | cons change changes ih =>
    rw [forall_mem_cons] at askable
    obtain ⟨first, packedFirst, packedRest⟩ := bind_eq_some_iff.mp packed
    obtain ⟨rest, packedTail, rfl⟩ := map_eq_some_iff.mp packedRest
    obtain ⟨small, rfl⟩ := (packChange_eq_some askable.1).mp packedFirst
    have size := askable.1.hash
    have enough : ¬ (change.hash ++ ([letter (if change.activate then 'A' else 'I')] ++
        rest)).length ≤ hashSize := by
      simp only [length_append, size, length_singleton]
      omega
    have flag : ((change.hash ++ ([letter (if change.activate then 'A' else 'I')] ++
        rest))[hashSize]? == some (letter 'A')) = change.activate := by
      rw [List.getElem?_append_right (by omega), size, Nat.sub_self]
      cases change.activate <;> rfl
    have behind : (change.hash ++ ([letter (if change.activate then 'A' else 'I')] ++
        rest)).drop (hashSize + 1) = rest := by
      rw [← drop_drop, drop_left' size]
      rfl
    rw [length_cons, readActivations, append_assoc, append_assoc, uplinkParseString_append _ small]
    simp only [if_neg enough, flag, behind, take_left' size, cString_eq askable.1.name,
      ih askable.2 packedTail, map_some, map_cons, asked]

theorem packChanges_isSome (named : ∀ change ∈ changes, change.name.length < 2 ^ 32) :
    ∃ records, packChanges changes = some records := by
  induction changes with
  | nil => exact ⟨[], rfl⟩
  | cons change changes ih =>
    rw [forall_mem_cons] at named
    obtain ⟨rest, packed⟩ := ih named.2
    have first : packChange change = some (word32 change.name.length ++ change.name ++
        packHash change.hash ++ [letter (if change.activate then 'A' else 'I')]) := by
      rw [packChange, formatString, if_pos named.1, map_some]
    rw [packChanges, first, packed]
    exact ⟨_, rfl⟩

/-- The client consumes the whole message of the activations. -/
theorem readActivation_activationMessage {message : Bytes}
    (askable : ∀ change ∈ changes, Askable change)
    (built : activationMessage changes = some message) :
    readActivation message = some (changes.map asked, []) := by
  unfold activationMessage at built
  split at built
  · next few =>
      obtain ⟨records, packed, rfl⟩ := map_eq_some_iff.mp built
      rw [readActivation, readWord32_append records few]
      exact readActivations_packChanges askable packed
  · cases built

/-- A message with some activations reaches the loop with all of them. -/
theorem handleActivation_activationMessage {Z : Type} {message : Bytes}
    (askable : ∀ change ∈ changes, Askable change) (nonempty : changes ≠ [])
    (built : activationMessage changes = some message) :
    (handleActivation message : LoopM Z Unit) =
      bufferReset >>= fun _ => loopPluginActivation (changes.map asked) := by
  unfold activationMessage at built
  split at built
  · next few =>
      obtain ⟨records, packed, rfl⟩ := map_eq_some_iff.mp built
      have size : (word32 changes.length).length = lengthSize := rfl
      have enough : ¬ (word32 changes.length ++ records).length < lengthSize := by
        rw [length_append, size]
        omega
      have positive : changes.length ≠ 0 := fun empty => nonempty (length_eq_zero_iff.mp empty)
      simp only [handleActivation, if_neg enough, take_left' size, drop_left' size,
        bigEndian_word32 few, if_neg positive, readActivations_fst,
        readActivations_packChanges askable packed, map_some]
  · cases built

end Answering

/-- Every message that is built is read as it was meant, and only long names are in the way. -/
theorem versions_and_activations_decode {Z : Type} {sizeBits : Nat} (plugins : List Plugin)
    (changes : List Change) (distinct : (plugins.map Plugin.name).Nodup)
    (typed : ∀ plugin ∈ plugins, Typed plugin)
    (fits : (plugins.map Plugin.describedSize).sum < 2 ^ sizeBits) (nonempty : changes ≠ [])
    (askable : ∀ change ∈ changes, Askable change) :
    (∀ message, pluginVersions sizeBits plugins = .ok message →
      handledVersions message = some (plugins.map announced)) ∧
    ((∀ plugin ∈ plugins, Named plugin) →
      ∃ message, pluginVersions sizeBits plugins = .ok message) ∧
    (∀ message, activationMessage changes = some message →
      readActivation message = some (changes.map asked, []) ∧
      (handleActivation message : LoopM Z Unit) =
        bufferReset >>= fun _ => loopPluginActivation (changes.map asked)) ∧
    (changes.length < 2 ^ 32 → (∀ change ∈ changes, change.name.length < 2 ^ 32) →
      ∃ message, activationMessage changes = some message) := by
  refine ⟨fun message built => ?_, fun named => ?_, fun message built => ?_, fun few named => ?_⟩
  · obtain ⟨named, rfl⟩ := (pluginVersions_eq_ok typed fits).mp built
    exact handledVersions_describe typed named distinct
  · exact ⟨_, (pluginVersions_eq_ok typed fits).mpr ⟨named, rfl⟩⟩
  · exact ⟨readActivation_activationMessage askable built,
      handleActivation_activationMessage askable nonempty built⟩
  · obtain ⟨records, packed⟩ := packChanges_isSome named
    rw [activationMessage, if_pos few, packed]
    exact ⟨_, rfl⟩

def samplePlugins : List Plugin :=
  [⟨[67, 111, 117, 110, 116], 1, List.replicate 16 7, [99, 46, 115, 111], true⟩,
    ⟨[70, 108, 111, 119], 300, List.replicate 16 9, [], false⟩]

def sampleChanges : List Change :=
  [⟨[70, 108, 111, 119], List.replicate 16 9, true⟩, ⟨[67], List.replicate 16 0, false⟩]

theorem versions_and_activations_decode_sample :
    ∃ versions activations : Bytes,
      pluginVersions 64 samplePlugins = .ok versions ∧
      handledVersions versions = some (samplePlugins.map announced) ∧
      activationMessage sampleChanges = some activations ∧
      readActivation activations = some (sampleChanges.map asked, []) := by
  have distinct : (samplePlugins.map Plugin.name).Nodup := by decide
  have typed : ∀ plugin ∈ samplePlugins, Typed plugin := by
    intro plugin member
    simp only [samplePlugins, mem_cons, not_mem_nil, or_false] at member
    rcases member with rfl | rfl
    · exact ⟨by decide, rfl⟩
    · exact ⟨by decide, rfl⟩
  have named : ∀ plugin ∈ samplePlugins, Named plugin := by
    intro plugin member
    simp only [samplePlugins, mem_cons, not_mem_nil, or_false] at member
    rcases member with rfl | rfl
    · exact ⟨by decide, by decide⟩
    · exact ⟨by decide, by decide⟩
  have askable : ∀ change ∈ sampleChanges, Askable change := by
    intro change member
    simp only [sampleChanges, mem_cons, not_mem_nil, or_false] at member
    rcases member with rfl | rfl
    · exact ⟨by decide, rfl⟩
    · exact ⟨by decide, rfl⟩
  obtain ⟨decodes, builds, answers, asks⟩ := @versions_and_activations_decode Unit 64
    samplePlugins sampleChanges distinct typed (by decide) (by decide) askable
  obtain ⟨versions, built⟩ := builds named
  obtain ⟨activations, asks⟩ := asks (by decide) (by decide)
  exact ⟨versions, activations, built, decodes versions built, asks, (answers activations asks).1⟩

end Ucollect.Activation
