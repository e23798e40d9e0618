import Mathlib.Data.Char
import Ucollect.Library.Changes
import Ucollect.Construction.Master.Client
import Ucollect.Library.Memo
import Ucollect.Library.Readers

/-
This file models the queries of master/diff_addr_store.py.
-/

namespace Ucollect.Master
open Library

/-- The rows of one version name each address at most once.
An address is an IPv4 or IPv6 address with or without a port. -/
structure Batch where
  changes : List (Library.Change Bytes)
  distinct : (changes.map Library.Change.key).Nodup
  legal : ∀ change ∈ changes, change.key.length ∈ [4, 6, 16, 18]

/-- The versions of one epoch start at 1. -/
abbrev History := List Batch

/-- These are the rows behind one version up to another one. -/
def History.rows (history : History) (fromVersion toVersion : Nat) : List (Library.Change Bytes) :=
  ((history.take toVersion).drop fromVersion).flatMap Batch.changes

/-- This is the set of addresses at a version. -/
def History.setAt (history : History) (version : Nat) : Finset Bytes :=
  applyChanges ∅ (history.rows 0 version)

/-- The query takes the last row of each address.
The database orders the rows by the text of the address. -/
def History.diffQuery (history : History) (fromVersion toVersion : Nat) : List (Library.Change Bytes) :=
  (lastChanges (history.rows fromVersion toVersion)).insertionSort fun first second =>
    first.key ≤ second.key

/-- This is one row of a diff. -/
def packAddress (change : Library.Change Bytes) : Bytes :=
  (change.key.length + change.add.toNat).toUInt8 :: change.key

/-- A full update does not mention deleted addresses. -/
def History.diffUpdate (history : History) (full : Bool) (fromVersion toVersion : Nat) : Bytes :=
  ((history.diffQuery fromVersion toVersion).filter fun change => change.add || !full).flatMap
    packAddress

end Ucollect.Master

/-
This file models the table of addresses and the cache of its diffs: master/diff_addr_store.py.
-/

namespace Ucollect.Master
open Library

abbrev Text := List Char

section Python

def stripText (strips : Char → Bool) (text : Text) : Text :=
  ((text.dropWhile strips).reverse.dropWhile strips).reverse

def digits (text : Text) : Option Nat :=
  if text = [] then none
  else text.foldlM (fun value char =>
    if char.isDigit then some (10 * value + (char.toNat - '0'.toNat)) else none) 0

/-- This is `int` of a text. -/
def intText (text : Text) : Option Int :=
  match stripText Char.isWhitespace text with
  | '-' :: rest => (digits rest).map fun value => -(value : Int)
  | '+' :: rest => (digits rest).map Int.ofNat
  | rest => (digits rest).map Int.ofNat

/-- The number is packed in two bytes, or in four. A number out of range raises an exception. -/
def packShort (value : Int) : Option Bytes :=
  if 0 ≤ value ∧ value < 2 ^ 16 then some (word16 value.toNat) else none

def packInt (value : Int) : Option Bytes :=
  if 0 ≤ value ∧ value < 2 ^ 32 then some (word32 value.toNat) else none

/-- The text is split at the last separator. -/
def rsplit (separator : Char) (text : Text) : Option (Text × Text) :=
  if separator ∈ text then
    let last := (text.reverse.takeWhile (· ≠ separator)).reverse
    some (text.take (text.length - last.length - 1), last)
  else none

end Python

inductive Family where
  | inet
  | inet6
  deriving DecidableEq, Repr

/-- An address may have a port behind it. -/
def compoundAddress (address : Text) : Option (Text × Bytes) := do
  let (ip, port) ← rsplit ':' address
  let port ← intText port
  let port ← packShort port
  some (stripText (fun char => char = '[' ∨ char = ']') ip, port)

/-- The first possibility that works is taken. -/
def addrConvert (inetPton : Family → Text → Option Bytes) (address : Text) : Option Bytes :=
  ((address, []) :: (compoundAddress address).toList).findSome? fun variant =>
    [Family.inet, .inet6].findSome? fun family =>
      (inetPton family variant.1).map (· ++ variant.2)

/-- This is a row of the table. The column of the names is `set` or `filter`. -/
structure Row where
  name : Bytes
  epoch : Nat
  version : Nat
  add : Bool
  address : Text
  deriving DecidableEq, Repr

/-- This is the key of the cache. -/
structure DiffKey where
  name : Bytes
  full : Bool
  epoch : Nat
  fromVersion : Nat
  toVersion : Nat
  deriving DecidableEq, Repr

/-- The versions behind the first one are in the diff. -/
def DiffKey.Covers (key : DiffKey) (name : Bytes) (epoch version : Nat) : Prop :=
  name = key.name ∧ epoch = key.epoch ∧ key.fromVersion < version ∧ version ≤ key.toVersion

instance (key : DiffKey) (name : Bytes) (epoch version : Nat) :
    Decidable (key.Covers name epoch version) := inferInstanceAs (Decidable (_ ∧ _ ∧ _ ∧ _))

/-- The last version of each address is joined with the table. -/
def lastVersion (rows : List Row) (address : Text) : Option Nat :=
  ((rows.filter fun row => row.address = address).map Row.version).max?

/-- This is the query of a diff. -/
def selectDiff (table : List Row) (key : DiffKey) : List Row :=
  let lasts := table.filter fun row => key.Covers row.name row.epoch row.version
  (table.filter fun row => row.name = key.name ∧ row.epoch = key.epoch ∧
    lastVersion lasts row.address = some row.version).insertionSort fun first second =>
      first.address ≤ second.address

/-- Each name has its newest epoch and the newest version in it. -/
def selectVersions (table : List Row) : List (Bytes × Nat × Nat) :=
  (table.map Row.name).eraseDups.map fun name =>
    let rows := table.filter fun row => row.name = name
    let epoch := (rows.map Row.epoch).foldl max 0
    (name, epoch, ((rows.filter fun row => row.epoch = epoch).map Row.version).foldl max 0)

def packRow (inetPton : Family → Text → Option Bytes) (row : Row) : Option Bytes :=
  (addrConvert inetPton row.address).map fun address =>
    (address.length + row.add.toNat).toUInt8 :: address

def DiffKey.header (key : DiffKey) : Bytes :=
  word32 key.name.length ++ key.name ++ [if key.full then 1 else 0] ++ word32 key.epoch ++
    (if key.full then [] else word32 key.fromVersion) ++ word32 key.toVersion

/-- The deleted addresses are not in a full update. An address that can not be converted raises
an exception. -/
def buildDiff (inetPton : Family → Text → Option Bytes) (table : List Row) (diffPrefix : Bytes)
    (key : DiffKey) : Option Bytes := do
  let rows ← ((selectDiff table key).filter fun row => row.add || !key.full).mapM (packRow inetPton)
  some (letter 'D' :: (diffPrefix ++ key.header ++ rows.flatten))

/-- These are the parts of a plugin that the mixin uses. The two computations may raise. -/
structure Mixin (Config : Type) where
  inetPton : Family → Text → Option Bytes
  diffPrefix : Config → Option Bytes
  broadcastConfig : Config → Bool

/-- The prefix has the version of the config. -/
def fwupPrefix : Option Text → Option Bytes
  | none => some (word32 0)
  | some version => (intText version).bind packInt

/-- Of its config the plugin `fwup` reads only the version. -/
def fwupMixin (inetPton : Family → Text → Option Bytes) : Mixin (Option Text) :=
  ⟨inetPton, fwupPrefix, fun config => (fwupPrefix config).isSome⟩

/-- The database, and the store with what it remembers of the database. -/
structure DiffWorld (Config : Type) where
  table : List Row
  config : Config
  conf : Config
  addresses : List (Bytes × Nat × Nat)
  cache : List (DiffKey × Bytes)

inductive DiffSent (Config : Type) where
  | config (config : Config)
  | version (name : Bytes) (epoch version : Nat)
  | diff (client : Bytes) (message : Bytes)
  deriving DecidableEq, Repr

/-- The names stand in the order of the table, so the lists are the same when the dictionaries
are. -/
def DiffWorld.checkConf {Config : Type} [DecidableEq Config] (mixin : Mixin Config)
    (world : DiffWorld Config) : DiffWorld Config × List (DiffSent Config) :=
  let addresses := selectVersions world.table
  let changed := world.conf ≠ world.config
  let moved := world.addresses ≠ addresses
  let versions := (addresses.filter fun entry => entry ∉ world.addresses).map fun entry =>
    DiffSent.version entry.1 entry.2.1 entry.2.2
  ({ world with
      conf := world.config
      addresses
      cache := if changed ∨ moved then [] else world.cache },
    if changed then
      -- An exception of the broadcast leaves the function, and the cache is empty by then.
      .config world.config :: if mixin.broadcastConfig world.config then versions else []
    else versions)

/-- A full request has no version to start from. -/
def readFromVersion (full : Bool) (message : Bytes) : Option (Nat × Bytes) :=
  if full then some (0, message) else readNumber 4 message

def parseRequest (message : Bytes) : Option DiffKey := do
  let (full, message) ← readNumber 1 message
  let (name, message) ← extractString message
  let (epoch, message) ← readNumber 4 message
  let (fromVersion, message) ← readFromVersion (full ≠ 0) message
  let (toVersion, message) ← readNumber 4 message
  if message = [] then some ⟨name, full ≠ 0, epoch, fromVersion, toVersion⟩ else none

section Requests

variable {Config : Type} (mixin : Mixin Config) (world : DiffWorld Config) (client message : Bytes)

/-- The plugin computes the prefix, and then the message is parsed and answered. -/
def DiffWorld.provideDiff : DiffWorld Config × List (DiffSent Config) :=
  match mixin.diffPrefix world.conf, parseRequest message with
  | some diffPrefix, some key =>
    let (answer, cache) := memoize (buildDiff mixin.inetPton world.table diffPrefix) world.cache key
    ({ world with cache }, answer.toList.map (.diff client))
  | _, _ => (world, [])

/-- This is the answer of a server that has no cache. -/
def DiffWorld.plainDiff : List (DiffSent Config) :=
  match mixin.diffPrefix world.conf, parseRequest message with
  | some diffPrefix, some key =>
    (buildDiff mixin.inetPton world.table diffPrefix key).toList.map (.diff client)
  | _, _ => []

end Requests

/-- The rows of a version appear together. -/
inductive DiffEvent (Config : Type) where
  | grow (name : Bytes) (epoch version : Nat) (changes : List (Text × Bool))
  | configure (config : Config)
  | check
  | request (client message : Bytes)
  deriving DecidableEq, Repr

def newRows (name : Bytes) (epoch version : Nat) (changes : List (Text × Bool)) : List Row :=
  changes.map fun change => ⟨name, epoch, version, change.2, change.1⟩

section Runs

variable {Config : Type} [DecidableEq Config] (mixin : Mixin Config)

def DiffWorld.step (world : DiffWorld Config) :
    DiffEvent Config → DiffWorld Config × List (DiffSent Config)
  | .grow name epoch version changes =>
    ({ world with table := world.table ++ newRows name epoch version changes }, [])
  | .configure config => ({ world with config }, [])
  | .check => world.checkConf mixin
  | .request client message => world.provideDiff mixin client message

def DiffWorld.run (world : DiffWorld Config) (events : List (DiffEvent Config)) :
    DiffWorld Config :=
  events.foldl (fun world event => (world.step mixin event).1) world

end Runs

end Ucollect.Master
