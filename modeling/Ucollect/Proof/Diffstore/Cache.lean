import Ucollect.Construction.Master.DiffCache

/-
This file proves when the cache of the diffs can not be noticed.
-/

namespace Ucollect.Master
open Library List

section Selection

variable {table more : List Row} {key : DiffKey} {inetPton : Family → Text → Option Bytes}

/-- The last version of an address is the one of a row. -/
theorem mem_of_lastVersion {rows : List Row} {address : Text} {version : Nat}
    (last : lastVersion rows address = some version) : ∃ row ∈ rows, row.version = version := by
  obtain ⟨row, member, same⟩ := List.mem_map.mp (List.max?_mem last)
  exact ⟨row, (mem_filter.mp member).1, same⟩

/-- Rows outside of the diff do not change it. -/
theorem selectDiff_append (outside : ∀ row ∈ more, ¬ key.Covers row.name row.epoch row.version) :
    selectDiff (table ++ more) key = selectDiff table key := by
  have none : more.filter (fun row => key.Covers row.name row.epoch row.version) = [] :=
    filter_eq_nil_iff.mpr fun row member covers =>
      outside row member (of_decide_eq_true covers)
  have lasts : (table ++ more).filter (fun row => key.Covers row.name row.epoch row.version) =
      table.filter fun row => key.Covers row.name row.epoch row.version := by
    rw [filter_append, none, append_nil]
  rw [selectDiff, selectDiff, lasts, filter_append]
  congr 1
  refine (congrArg _ (filter_eq_nil_iff.mpr ?_)).trans (append_nil _)
  intro row member selected
  obtain ⟨name, epoch, last⟩ := of_decide_eq_true selected
  obtain ⟨other, known, version⟩ := mem_of_lastVersion last
  obtain ⟨-, -, behind, upTo⟩ := of_decide_eq_true (mem_filter.mp known).2
  rw [version] at behind upTo
  exact outside row member ⟨name, epoch, behind, upTo⟩

theorem buildDiff_append (outside : ∀ row ∈ more, ¬ key.Covers row.name row.epoch row.version)
    (diffPrefix : Bytes) :
    buildDiff inetPton (table ++ more) diffPrefix key = buildDiff inetPton table diffPrefix key := by
  rw [buildDiff, buildDiff, selectDiff_append outside]

end Selection

section Transparency

variable {Config : Type} {mixin : Mixin Config} {world : DiffWorld Config}

/-- The cache holds the diffs of the database as it is now. -/
def DiffWorld.Fresh (mixin : Mixin Config) (world : DiffWorld Config) : Prop :=
  ∀ diffPrefix, mixin.diffPrefix world.conf = some diffPrefix →
    Faithful (buildDiff mixin.inetPton world.table diffPrefix) world.cache

theorem newRows_outside {key : DiffKey} {name : Bytes} {epoch version : Nat}
    {changes : List (Text × Bool)} (outside : ¬ key.Covers name epoch version) :
    ∀ row ∈ newRows name epoch version changes, ¬ key.Covers row.name row.epoch row.version := by
  intro row member
  obtain ⟨change, -, same⟩ := List.mem_map.mp member
  cases same
  exact outside

theorem provideDiff_fresh (fresh : world.Fresh mixin) (client message : Bytes) :
    (world.provideDiff mixin client message).1.Fresh mixin := by
  rw [DiffWorld.provideDiff]
  split
  · next diffPrefix key known _ =>
      intro other same
      have faithful := memoize_faithful (fresh diffPrefix known) key
      cases Option.some.inj (known.symm.trans same)
      exact faithful
  · exact fresh

/-- The answer is the one that a server without a cache sends. -/
theorem provideDiff_plain (fresh : world.Fresh mixin) (client message : Bytes) :
    (world.provideDiff mixin client message).2 = world.plainDiff mixin client message := by
  rw [DiffWorld.provideDiff, DiffWorld.plainDiff]
  split
  · next diffPrefix key known _ =>
      have value := memoize_value (fresh diffPrefix known) key
      exact congrArg (fun answer : Option Bytes => answer.toList.map (DiffSent.diff client)) value
  · rfl

variable [DecidableEq Config]

/-- No version appears that a diff in the cache covers. -/
def DiffWorld.Allows (world : DiffWorld Config) : DiffEvent Config → Prop
  | .grow name epoch version _ => ∀ entry ∈ world.cache, ¬ entry.1.Covers name epoch version
  | .configure _ | .check | .request _ _ => True

instance (world : DiffWorld Config) (event : DiffEvent Config) : Decidable (world.Allows event) :=
  match event with
  | .grow _ _ _ _ => inferInstanceAs (Decidable (∀ entry ∈ world.cache, ¬ entry.1.Covers _ _ _))
  | .configure _ | .check | .request _ _ => .isTrue trivial

def DiffWorld.Orderly (mixin : Mixin Config) (world : DiffWorld Config) :
    List (DiffEvent Config) → Prop
  | [] => True
  | event :: events => world.Allows event ∧ Orderly mixin (world.step mixin event).1 events

instance decidableOrderly (mixin : Mixin Config) (world : DiffWorld Config) :
    (events : List (DiffEvent Config)) → Decidable (world.Orderly mixin events)
  | [] => .isTrue trivial
  | event :: events =>
    have := decidableOrderly mixin (world.step mixin event).1 events
    inferInstanceAs (Decidable (_ ∧ _))

/-- The prefix changes only with the config, and then the cache is dropped. -/
theorem checkConf_fresh (fresh : world.Fresh mixin) : (world.checkConf mixin).1.Fresh mixin := by
  intro diffPrefix known
  show Faithful _ (if world.conf ≠ world.config ∨ world.addresses ≠ selectVersions world.table then []
    else world.cache)
  split
  · exact faithful_nil
  · next kept =>
      have same : world.conf = world.config := by
        by_contra changed
        exact kept (.inl changed)
      exact fresh diffPrefix (same ▸ known)

theorem step_fresh {event : DiffEvent Config} (fresh : world.Fresh mixin)
    (allowed : world.Allows event) : (world.step mixin event).1.Fresh mixin := by
  cases event with
  | grow name epoch version changes =>
    intro diffPrefix known
    refine (fresh diffPrefix known).change fun entry member => ?_
    exact buildDiff_append (newRows_outside (allowed entry member)) diffPrefix
  | configure config => exact fresh
  | check => exact checkConf_fresh fresh
  | request client message => exact provideDiff_fresh fresh client message

theorem run_fresh {events : List (DiffEvent Config)} (fresh : world.Fresh mixin)
    (orderly : world.Orderly mixin events) : (world.run mixin events).Fresh mixin := by
  induction events generalizing world with
  | nil => exact fresh
  | cons event events ih => exact ih (step_fresh fresh orderly.1) orderly.2

/-- Each diff is the one of the database at that moment when no version appears that a diff in the
cache covers. -/
theorem diffs_transparent (mixin : Mixin Config) (start : DiffWorld Config)
    (dropped : start.cache = []) (events : List (DiffEvent Config))
    (orderly : start.Orderly mixin events) (client message : Bytes) :
    ((start.run mixin events).provideDiff mixin client message).2 =
      (start.run mixin events).plainDiff mixin client message := by
  apply provideDiff_plain
  apply run_fresh _ orderly
  intro diffPrefix _
  rw [dropped]
  exact faithful_nil

/-- This conversion knows the addresses 192.0.2.0 to 192.0.2.9. -/
def samplePton : Family → Text → Option Bytes
  | .inet, ['1', '9', '2', '.', '0', '.', '2', '.', last] =>
    if last.isDigit then some [192, 0, 2, (last.toNat - 48).toUInt8] else none
  | _, _ => none

def sampleStart : DiffWorld (Option Text) := ⟨[], some ['1'], none, [], []⟩

def sampleAddress (last : Char) : Text := ['1', '9', '2', '.', '0', '.', '2', '.', last]

/-- A full request of the set `a`. -/
def sampleRequest (epoch version : Nat) : Bytes :=
  1 :: (word32 1 ++ [letter 'a'] ++ word32 epoch ++ word32 version)

/-- The second request is answered from the cache, and the third one after the version changed. -/
def sampleEvents : List (DiffEvent (Option Text)) :=
  [.grow [letter 'a'] 1 1 [(sampleAddress '1', true), (sampleAddress '2', true)], .check,
    .request [0] (sampleRequest 1 1), .request [1] (sampleRequest 1 1),
    .grow [letter 'a'] 1 2 [(sampleAddress '1', false)], .configure (some ['2']), .check]

theorem diffs_transparent_sample :
    ((sampleStart.run (fwupMixin samplePton) sampleEvents).provideDiff (fwupMixin samplePton) [0]
        (sampleRequest 1 2)).2 =
      (sampleStart.run (fwupMixin samplePton) sampleEvents).plainDiff (fwupMixin samplePton) [0]
        (sampleRequest 1 2) :=
  diffs_transparent (fwupMixin samplePton) sampleStart rfl sampleEvents (by decide +kernel) [0]
    (sampleRequest 1 2)

/-- The version is asked for before it appears, and an old epoch grows without being noticed. -/
def staleEvents : List (DiffEvent (Option Text)) :=
  [.grow [letter 'a'] 1 1 [(sampleAddress '1', true)],
    .grow [letter 'a'] 2 1 [(sampleAddress '2', true)], .check,
    .request [0] (sampleRequest 1 2), .grow [letter 'a'] 1 2 [(sampleAddress '3', true)], .check]

/-- The answer from the cache lacks the address that has appeared, even after a check. -/
theorem diffs_transparent_not :
    ((sampleStart.run (fwupMixin samplePton) staleEvents).provideDiff (fwupMixin samplePton) [0]
        (sampleRequest 1 2)).2 =
        [.diff [0] (letter 'D' :: (word32 1 ++ (word32 1 ++ [letter 'a'] ++ [1] ++ word32 1 ++
          word32 2) ++ [5, 192, 0, 2, 1]))] ∧
      (sampleStart.run (fwupMixin samplePton) staleEvents).plainDiff (fwupMixin samplePton) [0]
        (sampleRequest 1 2) =
        [.diff [0] (letter 'D' :: (word32 1 ++ (word32 1 ++ [letter 'a'] ++ [1] ++ word32 1 ++
          word32 2) ++ [5, 192, 0, 2, 1] ++ [5, 192, 0, 2, 3]))] := by
  decide +kernel

end Transparency

section Requests

variable {Config : Type} [DecidableEq Config] {mixin : Mixin Config} {world : DiffWorld Config}

/-- The table has this version of the set, or a newer one. -/
def Visible (table : List Row) (key : DiffKey) : Prop :=
  ∃ row ∈ table, row.name = key.name ∧ row.epoch = key.epoch ∧ key.toVersion ≤ row.version

/-- A client asks for a version that it was offered, and the versions of an epoch only grow. -/
def DiffWorld.Honest (world : DiffWorld Config) : DiffEvent Config → Prop
  | .grow name epoch version _ =>
    ∀ row ∈ world.table, row.name = name → row.epoch = epoch → row.version < version
  | .request _ message => ∀ key, parseRequest message = some key → Visible world.table key
  | .configure _ | .check => True

def DiffWorld.HonestRun (mixin : Mixin Config) (world : DiffWorld Config) :
    List (DiffEvent Config) → Prop
  | [] => True
  | event :: events => world.Honest event ∧ HonestRun mixin (world.step mixin event).1 events

theorem step_visible {event : DiffEvent Config} (honest : world.Honest event)
    (visible : ∀ entry ∈ world.cache, Visible world.table entry.1) :
    ∀ entry ∈ (world.step mixin event).1.cache,
      Visible (world.step mixin event).1.table entry.1 := by
  cases event with
  | grow name epoch version changes =>
    intro entry member
    obtain ⟨row, known, fits⟩ := visible entry member
    exact ⟨row, mem_append_left _ known, fits⟩
  | configure config => exact visible
  | check =>
    intro entry member
    have kept : entry ∈ if world.conf ≠ world.config ∨
        world.addresses ≠ selectVersions world.table then [] else world.cache := member
    split at kept
    · cases kept
    · exact visible entry kept
  | request client message =>
    show ∀ entry ∈ (world.provideDiff mixin client message).1.cache,
      Visible (world.provideDiff mixin client message).1.table entry.1
    rw [DiffWorld.provideDiff]
    split
    · next diffPrefix key known parsed =>
        intro entry member
        rcases mem_memoize member with old | new
        · exact visible entry old
        · exact new ▸ honest key parsed
    · exact visible

/-- Clients that ask only for visible versions never make the cache stale. -/
theorem orderly_of_honest {events : List (DiffEvent Config)}
    (visible : ∀ entry ∈ world.cache, Visible world.table entry.1)
    (honest : world.HonestRun mixin events) : world.Orderly mixin events := by
  induction events generalizing world with
  | nil => trivial
  | cons event events ih =>
    refine ⟨?_, ih (step_visible honest.1 visible) honest.2⟩
    cases event with
    | grow name epoch version changes =>
      intro entry member
      obtain ⟨row, known, name', epoch', upTo⟩ := visible entry member
      intro covers
      obtain ⟨nameSame, epochSame, -, below⟩ := covers
      have newer := honest.1 row known (name'.trans nameSame.symm) (epoch'.trans epochSame.symm)
      omega
    | configure config => trivial
    | check => trivial
    | request client message => trivial

/-- Clients that ask only for visible versions never notice the cache. -/
theorem honest_transparent (mixin : Mixin Config) (start : DiffWorld Config)
    (dropped : start.cache = []) (events : List (DiffEvent Config))
    (honest : start.HonestRun mixin events) (client message : Bytes) :
    ((start.run mixin events).provideDiff mixin client message).2 =
      (start.run mixin events).plainDiff mixin client message := by
  have visible : ∀ entry ∈ start.cache, Visible start.table entry.1 := by
    rw [dropped]
    exact fun _ member => absurd member not_mem_nil
  apply provideDiff_plain
  apply run_fresh _ (orderly_of_honest visible honest)
  intro diffPrefix _
  rw [dropped]
  exact faithful_nil

theorem honest_transparent_sample :
    ((sampleStart.run (fwupMixin samplePton) [.grow [letter 'a'] 1 1 [(sampleAddress '1', true)],
        .request [0] (sampleRequest 1 1)]).provideDiff (fwupMixin samplePton) [1]
        (sampleRequest 1 1)).2 =
      (sampleStart.run (fwupMixin samplePton) [.grow [letter 'a'] 1 1 [(sampleAddress '1', true)],
        .request [0] (sampleRequest 1 1)]).plainDiff (fwupMixin samplePton) [1]
        (sampleRequest 1 1) := by
  have parses : parseRequest (sampleRequest 1 1) = some ⟨[letter 'a'], true, 1, 0, 1⟩ := by
    decide +kernel
  refine honest_transparent _ _ rfl _ ?_ _ _
  refine ⟨fun _ member => absurd member not_mem_nil, fun key parsed => ?_, trivial⟩
  cases parses.symm.trans parsed
  exact ⟨_, mem_cons_self, by decide +kernel⟩

end Requests

end Ucollect.Master
