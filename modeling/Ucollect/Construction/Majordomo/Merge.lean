import Ucollect.Library.Tables

/-
This file models how plugins/majordomo/scripts/majordomo_merge.lua merges two files, with the reader
of majordomo_lib.lua. Numbers are exact.
-/

namespace Ucollect.Majordomo.Merge
open Library

abbrev Text := List Char

/-- This is `table.concat` with a comma between the parts. -/
def concat : List Text → Text
  | [] => []
  | [part] => part
  | part :: parts => part ++ ',' :: concat parts

def isWord (char : Char) : Bool := char.isAlphanum

def isAddress (char : Char) : Bool := char.isAlphanum || char = '.' || char = ':'

def isNumber (char : Char) : Bool := char.isDigit || char = '.'

def isName (char : Char) : Bool := char.isAlphanum || char = '_' || char = '.' || char = '-'

/-- These are the characters of each field of `DD`. No field has a default value. -/
def dd : List (Char → Bool) :=
  [isWord, isAddress, isAddress, isWord, isNumber, isNumber, isNumber, isNumber, isNumber, isNumber,
    isName]

/-- The pattern takes one character of the field at least, and it skips all the commas behind. -/
def matchField (field : Char → Bool) (rest : Text) : Option (Text × Text) :=
  if rest.takeWhile field = [] then none
  else some (rest.takeWhile field, (rest.dropWhile field).dropWhile (· = ','))

/-- Once a field does not match, nothing is left, and missing values are not inserted. -/
def parseLine : List (Char → Bool) → Text → List Text
  | [], _ => []
  | field :: dd, rest =>
    match matchField field rest with
    | none => []
    | some (val, rest) => val :: parseLine dd rest

/-- The number of these digits. -/
def decimal (digits : Text) : Nat :=
  digits.foldl (fun number digit => 10 * number + (digit.toNat - '0'.toNat)) 0

/-- There are no signs and no exponents in the text of a field. -/
def tonumber (text : Text) : Option ℚ :=
  let whole := text.takeWhile Char.isDigit
  match text.dropWhile Char.isDigit with
  | [] => if whole = [] then none else some (decimal whole)
  | '.' :: fraction =>
    if fraction.all Char.isDigit ∧ whole ++ fraction ≠ [] then
      some (decimal (whole ++ fraction) / 10 ^ fraction.length)
    else none
  | _ => none

inductive Counter where
  | dCount
  | dSize
  | dDataSize
  | uCount
  | uSize
  | uDataSize
  deriving DecidableEq, Repr

/-- An item of a client. -/
structure Item where
  counters : Counter → ℚ
  resolvedName : Option Text

/-- These are the columns of a line. -/
structure Record where
  proto : Text
  src : Text
  dst : Text
  port : Text
  counters : Counter → ℚ
  resolvedName : Option Text

def Record.key (record : Record) : Text :=
  concat [record.proto, record.src, record.dst, record.port]

/-- A line without columns is skipped. The script ends when a column is missing or no number. -/
def toRecord : List Text → Option (Option Record)
  | [] => some none
  | proto :: src :: dst :: port :: dCount :: dSize :: dDataSize :: uCount :: uSize :: uDataSize ::
      resolvedName => do
    let dCount ← tonumber dCount
    let dSize ← tonumber dSize
    let dDataSize ← tonumber dDataSize
    let uCount ← tonumber uCount
    let uSize ← tonumber uSize
    let uDataSize ← tonumber uDataSize
    some (some ⟨proto, src, dst, port, fun
      | .dCount => dCount
      | .dSize => dSize
      | .dDataSize => dDataSize
      | .uCount => uCount
      | .uSize => uSize
      | .uDataSize => uDataSize, resolvedName.head?⟩)
  | _ => none

abbrev Items := List (Text × Item)

/-- The items of the clients. -/
abbrev Db := List (Text × Items)

def Db.items (db : Db) (addr : Text) : Items := (db.lookup addr).getD []

/-- A new item starts with zeros. The first name that is known stays. -/
def Record.addTo (record : Record) (item : Option Item) : Item :=
  let item := item.getD ⟨0, record.resolvedName⟩
  ⟨item.counters + record.counters, item.resolvedName.or record.resolvedName⟩

def Db.add (db : Db) (record : Record) : Db :=
  upsert record.src (fun items => upsert record.key record.addTo (items.getD [])) db

def readFile : List Text → Db → Option Db
  | [], db => some db
  | line :: lines, db =>
    match toRecord (parseLine dd line) with
    | none => none
    | some none => readFile lines db
    | some (some record) => readFile lines (db.add record)

/-- The entries of a table come in any order. -/
structure Pairs where
  order : Items → Items
  perm : ∀ items, (order items).Perm items

/-- The order of the entries decides between items with the same value. -/
def getSortedItems (pairs : Pairs) (items : Items) (sortBy : Counter) : Items :=
  (pairs.order items).insertionSort fun x y => y.2.counters sortBy ≤ x.2.counters sortBy

def othersKey (addr : Text) : Text := concat ["both".toList, addr, "other".toList, "all".toList]

def Item.plus (item value : Item) : Item := { item with counters := item.counters + value.counters }

/-- The loop over the sorted items. The item of the others is in the new table from the start, so it
is not copied. -/
def eliminateLoop (others : Text) (maxItems : Nat) : Nat → Items → Items → Items
  | _, [], newItems => newItems
  | i, (key, value) :: sorted, newItems =>
    eliminateLoop others maxItems (i + 1) sorted
      (if maxItems < i ∧ key ≠ others then
        upsert others (fun item => (item.getD ⟨0, none⟩).plus value) newItems
      else if key = others then newItems
      else upsert key (fun _ => value) newItems)

def eliminateItems (pairs : Pairs) (addr : Text) (items : Items) (maxItems : Nat) : Items :=
  eliminateLoop (othersKey addr) maxItems 1 (getSortedItems pairs items .uCount)
    [(othersKey addr, (items.lookup (othersKey addr)).getD ⟨0, none⟩)]

/-- This is the database that the script writes. -/
def merge (pairs : Pairs) (maxItems : Nat) (first second : List Text) : Option Db := do
  let db ← readFile first []
  let db ← readFile second db
  some (db.map fun (addr, items) =>
    (addr, if items.length > maxItems then eliminateItems pairs addr items maxItems else items))

end Ucollect.Majordomo.Merge
