import Ucollect.Construction.Loading.Configurator

/-
This file models how core/pluglib.c searches the libraries for the imports of a plugin.
-/

namespace Ucollect.Loading

/-- This is `struct pluglib_export` with its function. -/
structure Export where
  symbol : Symbol
  function : Nat
  deriving DecidableEq, Repr

/-- This is `struct pluglib_import` with the function its pointer has now. -/
structure Import where
  symbol : Symbol
  function : Nat
  deriving DecidableEq, Repr

/-- The search has found a function or not, and it knows the pointer of the import. -/
structure Search where
  found : Bool
  function : Nat
  deriving DecidableEq, Repr

/-- This is the loop over the exports of a library. A prototype that is different is passed over. -/
def searchExports (link : Bool) (wanted : Symbol) : List Export → Search → Search
  | [], search => search
  | offered :: exports, search =>
    if search.found then search
    else if offered.symbol.name = wanted.name then
      if offered.symbol.prototype = none ∨ wanted.prototype = none ∨
          offered.symbol.prototype = wanted.prototype then
        ⟨true, if link then offered.function else search.function⟩
      else searchExports link wanted exports search
    else searchExports link wanted exports search

/-- The loop over the libraries goes on after the function was found. A library without a list of
exports has an empty one here. -/
def searchLibraries (link : Bool) (wanted : Symbol) (libraries : List (List Export))
    (search : Search) : Search :=
  libraries.foldl (fun search exports => searchExports link wanted exports search) search

/-- The first import without a function ends the search, and the imports before it stay linked. -/
def pluglibResolveFunctionsInternal (link : Bool) (libraries : List (List Export)) :
    List Import → Bool × List Import
  | [] => (true, [])
  | wanted :: imports =>
    let search := searchLibraries link wanted.symbol libraries ⟨false, wanted.function⟩
    let linked := { wanted with function := search.function }
    if search.found then
      let (found, imports) := pluglibResolveFunctionsInternal link libraries imports
      (found, linked :: imports)
    else (false, linked :: imports)

end Ucollect.Loading
