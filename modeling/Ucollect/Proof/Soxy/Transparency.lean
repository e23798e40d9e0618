import Ucollect.Proof.Soxy.Streams

namespace Ucollect.Soxy
open List Option

section Slots

variable {S : Type} {codec : Codec S} {conveys : Bytes → Bytes → Prop} {d final : Direction S}

/-- Everything that was taken is produced, unless the taken bytes have a data error. -/
def Contract.Kept (contract : Contract codec conveys) (enableCompression : Bool)
    (d : Direction S) : Prop :=
  d.invalid = false → (enableCompression = true → contract.Settled d) ∧
    (enableCompression = false → d.produced = d.taken)

theorem Contract.start_kept (contract : Contract codec conveys) (enableCompression : Bool) :
    contract.Kept enableCompression (Direction.start codec) := by
  intro _
  constructor
  · exact fun _ => ⟨contract.empty, .inl contract.start⟩
  · exact fun _ => rfl

theorem Direction.tryWrite_produced (amount : Option Nat) (d : Direction S) :
    (d.tryWrite amount).produced = d.produced := by
  unfold Direction.tryWrite
  split
  · rfl
  · split
    · rfl
    · simp only [Direction.produced, append_assoc, take_append_drop]

theorem Direction.tryWrite_rest (amount : Option Nat) (d : Direction S) :
    (d.tryWrite amount).taken = d.taken ∧ (d.tryWrite amount).stream = d.stream ∧
      (d.tryWrite amount).invalid = d.invalid ∧ (d.tryWrite amount).calls = d.calls := by
  unfold Direction.tryWrite
  split
  · exact ⟨rfl, rfl, rfl, rfl⟩
  · split <;> exact ⟨rfl, rfl, rfl, rfl⟩

theorem Direction.tryWrite_calls (amount : Option Nat) (d : Direction S) :
    d.calls ⊆ (d.tryWrite amount).calls := by
  rw [(d.tryWrite_rest amount).2.2.2]
  exact fun _ => id

variable {enableCompression : Bool} {contract : Contract codec conveys}

/-- The books of a direction do not see which bytes are still in the buffer. -/
theorem Contract.Kept.of_same (kept : contract.Kept enableCompression d)
    (produced : final.produced = d.produced) (taken : final.taken = d.taken)
    (stream : final.stream = d.stream) (invalid : final.invalid = d.invalid) :
    contract.Kept enableCompression final := by
  intro valid
  obtain ⟨settled, copied⟩ := kept (invalid ▸ valid)
  constructor
  · intro enabled
    have known := settled enabled
    exact ⟨taken ▸ produced ▸ known.conveys, taken ▸ produced ▸ stream ▸ known.at_end⟩
  · exact fun disabled => produced.trans ((copied disabled).trans taken.symm)

theorem Contract.Kept.tryWrite (kept : contract.Kept enableCompression d) (amount : Option Nat) :
    contract.Kept enableCompression (d.tryWrite amount) := by
  obtain ⟨taken, stream, invalid, _⟩ := d.tryWrite_rest amount
  exact kept.of_same (d.tryWrite_produced amount) taken stream invalid

variable {exit : Exit}

theorem Direction.filter_calls {fuel : Nat} {ar : Bytes}
    (ends : d.filter codec enableCompression fuel ar = some (exit, final)) :
    d.calls ⊆ final.calls := by
  rw [Direction.filter] at ends
  split at ends
  · exact (Direction.pump_pumped fuel ends).calls.1
  · cases ends
    exact fun _ => id

/-- What was read is produced when it went through the stream. -/
theorem Contract.Kept.filter (kept : contract.Kept enableCompression d) {fuel : Nat}
    (given : d.read.1 ≠ [])
    (ends : d.read.2.filter codec enableCompression fuel d.read.1 = some (exit, final))
    (roomy : ∀ call ∈ final.calls, Roomy codec call.1 call.2) :
    contract.Kept enableCompression final := by
  intro valid
  cases enableCompression with
  | true =>
    have pumped := Direction.pump_pumped fuel ends
    obtain ⟨before, good⟩ := pumped.valid valid
    have place := ((kept before).1 rfl).at_end
    refine ⟨fun _ => ?_, nofun⟩
    exact pumped.settled contract rfl place (fun nothing => absurd nothing given) roomy good
  | false =>
    cases ends
    refine ⟨nofun, fun _ => ?_⟩
    have same := (kept valid).2 rfl
    rw [Direction.produced] at same
    change d.written ++ (d.buffer ++ d.read.1) = d.taken ++ d.read.1
    rw [← append_assoc, same]

variable {writes : Nat → Option Nat}

/-- A slot reads until nothing is there, or until the loop over the input ends early. -/
theorem Direction.receive_cases {fuel : Nat}
    (ends : d.receive codec enableCompression writes (fuel + 1) = some final) :
    final = d ∨ d.read.1 ≠ [] ∧ ∃ exit filtered,
      d.read.2.filter codec enableCompression fuel d.read.1 = some (exit, filtered) ∧
      (final = filtered ∨
        (filtered.tryWrite (writes fuel)).receive codec enableCompression writes fuel =
          some final) := by
  simp only [Direction.receive] at ends
  split at ends
  case isTrue =>
    cases ends
    exact .inl rfl
  case isFalse given =>
    refine .inr ⟨given, ?_⟩
    split at ends
    case h_1 => cases ends
    case h_2 went => exact ⟨_, _, went, .inr ends⟩
    case h_3 went =>
      cases ends
      exact ⟨_, _, went, .inl rfl⟩

theorem Direction.receive_calls (fuel : Nat) {d : Direction S}
    (ends : d.receive codec enableCompression writes fuel = some final) :
    d.calls ⊆ final.calls := by
  induction fuel generalizing d with
  | zero => cases ends
  | succ fuel ih =>
    rcases Direction.receive_cases ends with rfl | ⟨_, exit, filtered, went, rfl | later⟩
    · exact fun _ => id
    · have early : d.read.2.calls ⊆ _ := Direction.filter_calls went
      exact early
    · have early : d.read.2.calls ⊆ _ := Direction.filter_calls went
      exact fun _ member => ih later (filtered.tryWrite_calls _ (early member))

/-- A whole slot produces what it reads. -/
theorem Contract.Kept.receive (fuel : Nat) {d : Direction S}
    (kept : contract.Kept enableCompression d)
    (ends : d.receive codec enableCompression writes fuel = some final)
    (roomy : ∀ call ∈ final.calls, Roomy codec call.1 call.2) :
    contract.Kept enableCompression final := by
  induction fuel generalizing d with
  | zero => cases ends
  | succ fuel ih =>
    rcases Direction.receive_cases ends with rfl | ⟨given, exit, filtered, went, rfl | later⟩
    · exact kept
    · exact kept.filter given went roomy
    · apply ih ?_ later
      apply Contract.Kept.tryWrite
      apply kept.filter given went
      intro call member
      exact roomy call (Direction.receive_calls fuel later (filtered.tryWrite_calls _ member))

theorem Direction.filter_invalid {fuel : Nat} {ar : Bytes}
    (never : ∀ stream input, codec.call stream input ≠ none)
    (ends : d.filter codec enableCompression fuel ar = some (exit, final)) :
    final.invalid = d.invalid := by
  rw [Direction.filter] at ends
  split at ends
  · exact (Direction.pump_pumped fuel ends).invalid_eq never
  · cases ends
    rfl

theorem Direction.receive_invalid (fuel : Nat) {d : Direction S}
    (never : ∀ stream input, codec.call stream input ≠ none)
    (ends : d.receive codec enableCompression writes fuel = some final) :
    final.invalid = d.invalid := by
  induction fuel generalizing d with
  | zero => cases ends
  | succ fuel ih =>
    rcases Direction.receive_cases ends with rfl | ⟨_, exit, filtered, went, rfl | later⟩
    · rfl
    · have same : _ = d.read.2.invalid := Direction.filter_invalid never went
      exact same
    · have same : _ = d.read.2.invalid := Direction.filter_invalid never went
      exact (ih later).trans ((filtered.tryWrite_rest _).2.2.1.trans same)

end Slots

section Runs

variable {zlib : Zlib}

/-- The bytes of the other side are compressed only where compression is enabled. -/
def Zlib.plain (zlib : Zlib) (enableCompression : Bool) (bytes : Bytes) : Bytes :=
  if enableCompression then zlib.decompress bytes else bytes

/-- The two streams of zlib keep their promises, and compression never has a data error. -/
structure Zlib.Keeps (zlib : Zlib) where
  deflate : Contract zlib.deflate fun taken produced => zlib.decompress produced = taken
  inflate : Contract zlib.inflate fun taken produced => produced = zlib.decompress taken
  valid : ∀ stream input, zlib.deflate.call stream input ≠ none

/-- No call in the run fills its buffer with the last byte of its input. -/
structure World.Roomy (world : World zlib) : Prop where
  outgoing : ∀ call ∈ world.outgoing.calls, Soxy.Roomy zlib.deflate call.1 call.2
  incoming : ∀ call ∈ world.incoming.calls, Soxy.Roomy zlib.inflate call.1 call.2

structure World.Kept (keeps : zlib.Keeps) (enableCompression : Bool) (world : World zlib) :
    Prop where
  enabled : world.enableCompression = enableCompression
  outgoing : keeps.deflate.Kept enableCompression world.outgoing
  incoming : keeps.inflate.Kept enableCompression world.incoming
  valid : world.outgoing.invalid = false

variable {world next final : World zlib}

/-- The calls of zlib are only added. -/
structure World.Calls (world next : World zlib) : Prop where
  outgoing : world.outgoing.calls ⊆ next.outgoing.calls
  incoming : world.incoming.calls ⊆ next.incoming.calls

theorem World.Calls.refl (world : World zlib) : world.Calls world := ⟨fun _ => id, fun _ => id⟩

theorem World.Roomy.earlier (roomy : next.Roomy) (calls : world.Calls next) : world.Roomy :=
  ⟨fun call member => roomy.outgoing call (calls.outgoing member),
    fun call member => roomy.incoming call (calls.incoming member)⟩

variable {event : Event}

theorem World.handle_calls {fuel : Nat} (handled : world.handle fuel event = some next) :
    world.Calls next := by
  cases event with
  | localArrives | remoteArrives | disconnected =>
    cases handled
    exact ⟨fun _ => id, fun _ => id⟩
  | outgoing writes =>
    obtain ⟨d, received, rfl⟩ := map_eq_some_iff.mp handled
    exact ⟨Direction.receive_calls fuel received, fun _ => id⟩
  | incoming writes =>
    obtain ⟨d, received, rfl⟩ := map_eq_some_iff.mp handled
    exact ⟨fun _ => id, Direction.receive_calls fuel received⟩
  | connectedRemote amount =>
    cases handled
    exact ⟨{ world.outgoing with ready := true }.tryWrite_calls amount, fun _ => id⟩
  | connectedLocal amount =>
    cases handled
    exact ⟨fun _ => id, { world.incoming with ready := true }.tryWrite_calls amount⟩
  | tryWriteRemote amount =>
    cases handled
    exact ⟨world.outgoing.tryWrite_calls amount, fun _ => id⟩
  | tryWriteLocal amount =>
    cases handled
    exact ⟨fun _ => id, world.incoming.tryWrite_calls amount⟩

/-- Each slot keeps both directions. -/
theorem World.Kept.handle {keeps : zlib.Keeps} {enableCompression : Bool}
    (kept : world.Kept keeps enableCompression) {fuel : Nat}
    (handled : world.handle fuel event = some next) (roomy : next.Roomy) :
    next.Kept keeps enableCompression := by
  obtain ⟨rfl, outgoing, incoming, valid⟩ := kept
  cases event with
  | localArrives bytes =>
    cases handled
    exact ⟨rfl, outgoing.of_same rfl rfl rfl rfl, incoming, valid⟩
  | remoteArrives bytes =>
    cases handled
    exact ⟨rfl, outgoing, incoming.of_same rfl rfl rfl rfl, valid⟩
  | disconnected =>
    cases handled
    exact ⟨rfl, outgoing, incoming, valid⟩
  | outgoing writes =>
    obtain ⟨d, received, rfl⟩ := map_eq_some_iff.mp handled
    exact ⟨rfl, outgoing.receive fuel received roomy.outgoing, incoming,
      (Direction.receive_invalid fuel keeps.valid received).trans valid⟩
  | incoming writes =>
    obtain ⟨d, received, rfl⟩ := map_eq_some_iff.mp handled
    exact ⟨rfl, outgoing, incoming.receive fuel received roomy.incoming, valid⟩
  | connectedRemote amount =>
    cases handled
    have ready : keeps.deflate.Kept world.enableCompression
      { world.outgoing with ready := true } := outgoing.of_same rfl rfl rfl rfl
    have same := ({ world.outgoing with ready := true }.tryWrite_rest amount).2.2.1
    exact ⟨rfl, ready.tryWrite amount, incoming, same.trans valid⟩
  | connectedLocal amount =>
    cases handled
    have ready : keeps.inflate.Kept world.enableCompression
      { world.incoming with ready := true } := incoming.of_same rfl rfl rfl rfl
    exact ⟨rfl, outgoing, ready.tryWrite amount, valid⟩
  | tryWriteRemote amount =>
    cases handled
    have same := (world.outgoing.tryWrite_rest amount).2.2.1
    exact ⟨rfl, outgoing.tryWrite amount, incoming, same.trans valid⟩
  | tryWriteLocal amount =>
    cases handled
    exact ⟨rfl, outgoing, incoming.tryWrite amount, valid⟩

theorem World.step_cases {fuel : Nat} (stepped : world.step fuel event = some next) :
    next = world ∨ world.handle fuel event = some next := by
  rw [World.step] at stepped
  split at stepped
  · exact .inl (Option.some.inj stepped).symm
  · exact .inr stepped

variable {events : List Event}

theorem World.run_cons {fuel : Nat} (ended : world.run fuel (event :: events) = some final) :
    ∃ next, world.step fuel event = some next ∧ next.run fuel events = some final := by
  rw [World.run, foldlM_cons] at ended
  exact bind_eq_some_iff.mp ended

theorem World.run_calls {fuel : Nat} (ended : world.run fuel events = some final) :
    world.Calls final := by
  induction events generalizing world with
  | nil =>
    cases ended
    exact .refl _
  | cons event events ih =>
    obtain ⟨next, stepped, later⟩ := World.run_cons ended
    have late := ih later
    rcases World.step_cases stepped with rfl | handled
    · exact late
    · have early := World.handle_calls handled
      exact ⟨fun _ member => late.outgoing (early.outgoing member),
        fun _ member => late.incoming (early.incoming member)⟩

theorem World.Kept.run {keeps : zlib.Keeps} {enableCompression : Bool} {fuel : Nat}
    (kept : world.Kept keeps enableCompression) (ended : world.run fuel events = some final)
    (roomy : final.Roomy) :
    final.Kept keeps enableCompression := by
  induction events generalizing world with
  | nil =>
    cases ended
    exact kept
  | cons event events ih =>
    obtain ⟨next, stepped, later⟩ := World.run_cons ended
    rcases World.step_cases stepped with rfl | handled
    · exact ih kept later
    · exact ih (kept.handle handled (roomy.earlier (World.run_calls later))) later

/-- In a run where no call fills its buffer with the last of its input, the produced bytes of both
directions have exactly what was taken. -/
theorem run_transparent {zlib : Zlib} (keeps : zlib.Keeps) (enableCompression : Bool) (fuel : Nat)
    (events : List Event) (world : World zlib)
    (ended : (World.start zlib enableCompression).run fuel events = some world)
    (roomy : world.Roomy) :
    zlib.plain enableCompression world.outgoing.produced = world.outgoing.taken ∧
      (world.incoming.invalid = false →
        world.incoming.produced = zlib.plain enableCompression world.incoming.taken) := by
  have start : (World.start zlib enableCompression).Kept keeps enableCompression :=
    ⟨rfl, keeps.deflate.start_kept _, keeps.inflate.start_kept _, rfl⟩
  have kept := start.run ended roomy
  have outgoing := kept.outgoing kept.valid
  have incoming := kept.incoming
  cases enableCompression with
  | true => exact ⟨(outgoing.1 rfl).conveys, fun valid => ((incoming valid).1 rfl).conveys⟩
  | false => exact ⟨outgoing.2 rfl, fun valid => (incoming valid).2 rfl⟩

end Runs

end Ucollect.Soxy
