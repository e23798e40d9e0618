import Ucollect.Library.Deferred
import Ucollect.Construction.Core.MemPool
import Ucollect.Construction.Core.Uplink

/-
This file contains the commands of ipset, and what `ipset -exist restore` promises about them.
-/

namespace Ucollect.Fwup
open Library

abbrev Name := Bytes

/-- The mark is the text `XXX`, which stands for a protocol that is not chosen yet. -/
inductive Protocol where
  | mark
  | tcp
  | udp
  deriving DecidableEq, Repr

/-- The port is in network order. -/
structure Entry where
  address : Bytes
  service : Option (Protocol × Bytes)
  deriving DecidableEq, Repr

inductive Command where
  | create (name : Name) (desc family : String) (hashSize maxSize : Nat)
  | add (name : Name) (entry : Entry)
  | del (name : Name) (entry : Entry)
  | swap (first second : Name)
  | destroy (name : Name)
  deriving DecidableEq, Repr

structure KernelSet where
  desc : String
  family : String
  hashSize : Nat
  maxSize : Nat
  entries : Finset Entry
  deriving DecidableEq

abbrev Kernel := Name → Option KernelSet

def Kernel.empty : Kernel := fun _ => none

/-- The commands that ipset must execute.

With `-exist` it is no error to create exactly the same set again, to add an entry that is there or
to delete one that is missing. Nothing is said about any other command. -/
structure Ipset where
  run : Kernel → Command → Option Kernel
  creatable : Name → String → String → Nat → Nat → Bool
  storable : String → String → Entry → Bool
  create_new : ∀ {kernel : Kernel} {name desc family hashSize maxSize},
    kernel name = none → creatable name desc family hashSize maxSize = true →
      run kernel (.create name desc family hashSize maxSize) =
        some (Function.update kernel name (some ⟨desc, family, hashSize, maxSize, ∅⟩))
  create_same : ∀ {kernel : Kernel} {name set},
    kernel name = some set →
      run kernel (.create name set.desc set.family set.hashSize set.maxSize) = some kernel
  add_entry : ∀ {kernel : Kernel} {name set entry},
    kernel name = some set → storable set.desc set.family entry = true →
      entry ∈ set.entries ∨ set.entries.card < set.maxSize →
        run kernel (.add name entry) =
          some (Function.update kernel name
            (some { set with entries := insert entry set.entries }))
  del_entry : ∀ {kernel : Kernel} {name set entry},
    kernel name = some set → storable set.desc set.family entry = true →
      run kernel (.del name entry) =
        some (Function.update kernel name (some { set with entries := set.entries.erase entry }))
  swap_sets : ∀ {kernel : Kernel} {first second firstSet secondSet},
    kernel first = some firstSet → kernel second = some secondSet →
      firstSet.desc = secondSet.desc → firstSet.family = secondSet.family →
        run kernel (.swap first second) =
          some (Function.update (Function.update kernel first (some secondSet)) second
            (some firstSet))
  destroy_set : ∀ {kernel : Kernel} {name set},
    kernel name = some set →
      run kernel (.destroy name) = some (Function.update kernel name none)

section Restore

end Restore

end Ucollect.Fwup

/-
This file models how `set_exists` of plugins/fwup/main.c reads the list of the sets of the kernel.
-/

namespace Ucollect.Fwup
open Library Core MemPool

/-- Some bytes are written to a block of this size. -/
structure BlockWrite where
  start : Nat
  size : Nat
  allocated : Nat
  deriving DecidableEq, Repr

/-- Every index that is written is below the size of the block. -/
def BlockWrite.Inside (write : BlockWrite) : Prop :=
  ∀ index, write.start ≤ index → index < write.start + write.size → index < write.allocated

/-- The listing is known by its text, by the size of its block and by the writes that were done. -/
structure SetListing where
  text : Bytes
  allocated : Nat
  writes : List BlockWrite
  deriving DecidableEq, Repr

/-- Each turn of the loop gets a larger block, copies the text into it and reads a piece behind the
text. Only then it knows how large the block was. An end of file ends the loop. -/
def readListing (block : Nat) (text : Bytes) : List Bytes → SetListing
  | [] => ⟨text, block, [⟨0, text.length, block⟩, ⟨text.length, 1, block⟩]⟩
  | piece :: pieces =>
    let rest := readListing (2 * block) (text ++ piece) pieces
    { rest with writes :=
        ⟨0, text.length, block⟩ :: ⟨text.length, piece.length, block⟩ :: rest.writes }

/-- The call of `read` asks for the doubled size without what is used and without one byte. -/
def Delivers (block pos : Nat) : List Bytes → Prop
  | [] => True
  | piece :: pieces =>
    piece ≠ [] ∧ piece.length ≤ 2 * block - pos - 1 ∧
      Delivers (2 * block) (pos + piece.length) pieces

def lineBreak : UInt8 := 10

/-- Each line break ends a string, and the last string stands behind the last line break. -/
def splitListing : Bytes → List Bytes
  | [] => [[]]
  | byte :: rest =>
    if byte = lineBreak then [] :: splitListing rest
    else
      match splitListing rest with
      | [] => [[byte]]
      | first :: others => (byte :: first) :: others

/-- Each line break is overwritten with the end of a string. -/
def SetListing.breakWrites (listing : SetListing) : List BlockWrite :=
  ((List.range listing.text.length).filter fun index =>
    listing.text[index]? = some lineBreak).map fun index => ⟨index, 1, listing.allocated⟩

/-- The array of the pointers is allocated with one byte for each of them. -/
def positionWrites (machine : Machine) (count : Nat) : List BlockWrite :=
  (List.range count).map fun index => ⟨machine.word * index, machine.word, count⟩

def firstBlock : Nat := 1000

/-- These are the strings of `existing_sets` with all the writes. -/
def listSets (machine : Machine) (pieces : List Bytes) : List Bytes × List BlockWrite :=
  let listing := readListing firstBlock [] pieces
  let strings := splitListing listing.text
  (strings.map cString,
    listing.writes ++ (listing.breakWrites ++ positionWrites machine strings.length))

end Ucollect.Fwup
