import Mathlib.Algebra.Group.Nat.Defs
import Mathlib.Data.List.Basic

/-
This file contains strings of bytes and numbers in network order.
-/

namespace Ucollect.Library

abbrev Bytes := List UInt8

instance : LawfulBEq Bytes := inferInstance

def letter (char : Char) : UInt8 := char.toUInt8

/-- This is the number that the bytes encode in network order. -/
def bigEndian (bytes : Bytes) : Nat :=
  bytes.foldl (fun number byte => 256 * number + byte.toNat) 0

/-- These are the low 32 bits of the number in network order. -/
def word32 (number : Nat) : Bytes :=
  [(number / 2 ^ 24).toUInt8, (number / 2 ^ 16).toUInt8, (number / 2 ^ 8).toUInt8,
    number.toUInt8]

/-- These are the low 16 bits of the number in network order. -/
def word16 (number : Nat) : Bytes := [(number / 2 ^ 8).toUInt8, number.toUInt8]

/-- These are the low 64 bits of the number in network order. -/
def word64 (number : Nat) : Bytes := word32 (number / 2 ^ 32) ++ word32 number

end Ucollect.Library
