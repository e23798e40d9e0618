import Mathlib.Data.List.Basic

/-
This file models the libraries of plugins in core/loop.c and core/pluglib.c.
-/

namespace Ucollect.Loading

/-- The daemon ends. -/
inductive Halt where
  | nullName
  | noCandidate
  | copyFailed
  | unresolved
  | strayPlugin
  deriving DecidableEq, Repr

/-- An import or an export. Without a prototype, any prototype fits. -/
structure Symbol where
  name : String
  prototype : Option String
  deriving DecidableEq, Repr

/-- This is what a library says about itself. -/
structure LibraryInfo where
  name : String
  compat : Nat
  version : Nat
  exports : List Symbol
  deriving DecidableEq, Repr

/-- This is the result of `pluglib_load`. The hash is zero when the file can not be read. -/
structure PluglibLoad where
  hash : Nat
  info : Option LibraryInfo
  deriving DecidableEq, Repr

/-- A node of the list of the loop with its library. A node without information is left from a
library that was not loaded: it has neither a handle nor a name, and it is not ready. -/
structure Pluglib where
  id : Nat
  hash : Nat
  info : Option LibraryInfo
  refCount : Int
  deriving DecidableEq, Repr

/-- A node of the list of a plugin is a copy of a node of the loop. The name is the one the library
was asked for under, and it is not in the source. -/
structure PluglibEntry where
  name : String
  lib : Nat
  ready : Bool
  deriving DecidableEq, Repr

/-- The libraries of the loop and the next address that is free. The last field is not in the source.
It says that a counter has gone below zero. -/
structure Libraries where
  pluglibs : List Pluglib
  fresh : Nat
  wrapped : Bool
  deriving DecidableEq, Repr

def Libraries.count (libraries : Libraries) (lib : Nat) (change : Int) : Libraries :=
  { libraries with
    pluglibs := libraries.pluglibs.map fun node =>
      if node.id = lib then { node with refCount := node.refCount + change } else node
    wrapped := libraries.wrapped ||
      libraries.pluglibs.any fun node => node.id = lib ∧ node.refCount + change < 0 }

/-- The search compares with all the nodes before the new one. The check for a node without a handle
looks at the new node, so nothing is skipped. -/
def findCandidate (node : Pluglib) (info : LibraryInfo) : List Pluglib → Except Halt Pluglib
  | [] => .error .noCandidate
  | candidate :: rest =>
    if candidate.id = node.id then .ok candidate
    else if candidate.hash = node.hash then .ok candidate
    else
      match candidate.info with
      | none => .error .nullName
      | some found =>
        if found.name = info.name ∧ found.compat = info.compat ∧ info.version ≤ found.version then
          .ok candidate
        else findCandidate node info rest

/-- A library is always loaded first, and the node stays when a better one is found. -/
def pluglibInstall (libraries : Libraries) (libname : String) (load : PluglibLoad) (live : Bool) :
    Except Halt (Option PluglibEntry × Libraries) :=
  let node : Pluglib := ⟨libraries.fresh, load.hash, load.info, 0⟩
  let libraries : Libraries :=
    ⟨libraries.pluglibs ++ [node], libraries.fresh + 1, libraries.wrapped⟩
  match load.info with
  | none => .ok (none, libraries)
  | some info => do
    let found ← findCandidate node info libraries.pluglibs
    .ok (some ⟨libname, found.id, found.info.isSome⟩,
      if live then libraries.count found.id 1 else libraries)

/-- The first library that fails ends the installation. -/
def installAll (disk : String → PluglibLoad) (live : Bool) :
    List String → List PluglibEntry → Libraries →
      Except Halt (Bool × List PluglibEntry × Libraries)
  | [], entries, libraries => .ok (true, entries, libraries)
  | name :: names, entries, libraries => do
    match ← pluglibInstall libraries name (disk name) live with
    | (none, libraries) => .ok (false, entries, libraries)
    | (some entry, libraries) => installAll disk live names (entries ++ [entry]) libraries

def pluglibsUnlink (entries : List PluglibEntry) (libraries : Libraries) : Libraries :=
  entries.foldl (fun libraries entry =>
    if entry.ready then libraries.count entry.lib (-1) else libraries) libraries

/-- The counters are raised for entries of any kind. -/
def pluglibsLink (entries : List PluglibEntry) (libraries : Libraries) : Libraries :=
  entries.foldl (fun libraries entry => libraries.count entry.lib 1) libraries

/-- A node without a library or without references is removed, and its library is unloaded. -/
def pluglibsCleanup (libraries : Libraries) : Libraries :=
  { libraries with pluglibs := libraries.pluglibs.filter fun node =>
      node.info.isSome && node.refCount ≠ 0 }

def Symbol.fits (wanted offered : Symbol) : Bool :=
  offered.name = wanted.name ∧
    (offered.prototype = none ∨ wanted.prototype = none ∨ offered.prototype = wanted.prototype)

/-- The library that is not loaded exports nothing. -/
def Libraries.exported (libraries : Libraries) (lib : Nat) : List Symbol :=
  match libraries.pluglibs.find? fun node => node.id = lib with
  | none => []
  | some node => (node.info.map LibraryInfo.exports).getD []

/-- Each import is linked to the first library that exports it. -/
def pluglibResolveFunctions (libraries : Libraries) (entries : List PluglibEntry)
    (imports : List Symbol) : Option (List Nat) :=
  imports.mapM fun wanted => (entries.find? fun entry =>
    (libraries.exported entry.lib).any wanted.fits).map PluglibEntry.lib

def pluglibCheckFunctions (libraries : Libraries) (entries : List PluglibEntry)
    (imports : List Symbol) : Bool :=
  (pluglibResolveFunctions libraries entries imports).isSome

end Ucollect.Loading

/-
This file models how core/loop.c adds, keeps and removes plugins.
-/

namespace Ucollect.Loading

/-- A trie of options has a list of values for each name. -/
abbrev Options := String → List String

/-- This is `struct plugin_holder`. The address of the holder is the one of its context. The library
is the handle of the loaded plugin, which the copies of the holder share. The links are the libraries
its imports point to. -/
structure Holder where
  address : Nat
  library : Nat
  libname : String
  apiVersion : Nat
  imports : List Symbol
  configTrie : Options
  configCandidate : Options
  pluglibs : List PluglibEntry
  candidatePluglibs : List PluglibEntry
  links : List Nat
  fds : List Nat
  original : Option Nat
  mark : Bool
  failed : Nat

/-- A registered file descriptor, with the address of the holder it belongs to. -/
structure Handler where
  node : Nat
  plugin : Nat
  deriving DecidableEq, Repr

/-- A pending timeout is known by its context. -/
structure Loop where
  plugins : List Holder
  libraries : Libraries
  timeouts : List (Option Nat)
  handlers : List Handler

/-- This is what a callback of a plugin registers. -/
inductive Registration where
  | timeout
  | freeTimeout
  | fd
  deriving DecidableEq, Repr

def Loop.register (pair : Loop × Holder) : Registration → Loop × Holder
  | .timeout => ({ pair.1 with timeouts := pair.1.timeouts ++ [some pair.2.address] }, pair.2)
  | .freeTimeout => ({ pair.1 with timeouts := pair.1.timeouts ++ [none] }, pair.2)
  | .fd =>
    ({ pair.1 with
      handlers := pair.1.handlers ++ [⟨pair.1.libraries.fresh, pair.2.address⟩]
      libraries := { pair.1.libraries with fresh := pair.1.libraries.fresh + 1 } },
      { pair.2 with fds := pair.2.fds ++ [pair.1.libraries.fresh] })

def Loop.registerAll (loop : Loop) (holder : Holder) (registrations : List Registration) :
    Loop × Holder :=
  registrations.foldl register (loop, holder)

def Loop.modifyPlugin (loop : Loop) (address : Nat) (change : Holder → Holder) : Loop :=
  { loop with plugins := loop.plugins.map fun plugin =>
      if plugin.address = address then change plugin else plugin }

/-- The copy of a holder has the same list of descriptors in the same memory. The original sees what
was appended, unless it had none. -/
def Loop.shareFds (loop : Loop) (copy : Holder) : Loop :=
  match copy.original with
  | none => loop
  | some address => loop.modifyPlugin address fun plugin =>
    { plugin with fds := if plugin.fds = [] then [] else copy.fds }

/-- This is the result of `plugin_load`. -/
structure PluginLoad where
  apiVersion : Nat
  imports : List Symbol

/-- This is what the code outside of the core does when a plugin is added. -/
structure Surroundings where
  plugin : Option PluginLoad
  disk : String → PluglibLoad
  init : List Registration
  initFails : Bool
  check : List Registration
  checkPasses : Bool

/-- These are the callbacks at the end of a transaction. -/
structure Callbacks where
  finish : Holder → List Registration
  configFinish : Holder → List Registration

structure Configurator where
  loop : Loop
  plugins : List Holder
  configTrie : Options
  pluglibNames : List String

def noOptions : Options := fun _ => []

/-- All the plugins are marked for removal. -/
def loopConfigStart (loop : Loop) : Configurator :=
  ⟨{ loop with plugins := loop.plugins.map fun plugin => { plugin with mark := true } }, [],
    noOptions, []⟩

def Configurator.setPluginOpt (configurator : Configurator) (name value : String) : Configurator :=
  { configurator with
    configTrie := Function.update configurator.configTrie name
      (configurator.configTrie name ++ [value]) }

def Configurator.setPluglib (configurator : Configurator) (libname : String) : Configurator :=
  { configurator with pluglibNames := configurator.pluglibNames ++ [libname] }

def Configurator.setLibraries (configurator : Configurator) (libraries : Libraries) :
    Configurator :=
  { configurator with loop := { configurator.loop with libraries := libraries } }

/-- The new plugin stands in the configurator from now on, whatever the callback says. -/
def Configurator.configCheck (configurator : Configurator) (surroundings : Surroundings)
    (plugin : Holder) : Bool × Configurator :=
  let (loop, plugin) := configurator.loop.registerAll plugin surroundings.check
  (surroundings.checkPasses,
    { configurator with
      loop := loop.shareFds plugin
      plugins := configurator.plugins ++ [plugin] })

/-- The check of the functions looks at the old libraries. Names that are refused stay behind. -/
def Configurator.adoptPluglibs (configurator : Configurator) (disk : String → PluglibLoad)
    (plugin : Holder) : Except Halt (Bool × Configurator × Holder) :=
  if configurator.pluglibNames = [] then .ok (true, configurator, plugin)
  else if plugin.apiVersion = 0 then .ok (false, configurator, plugin)
  else do
    let (installed, entries, libraries) ←
      installAll disk false configurator.pluglibNames [] configurator.loop.libraries
    .ok (installed && pluglibCheckFunctions libraries plugin.pluglibs plugin.imports,
      { configurator.setLibraries libraries with pluglibNames := [] },
      { plugin with candidatePluglibs := entries })

def Configurator.copyHolder (configurator : Configurator) (old : Holder) : Holder :=
  { old with
    address := configurator.loop.libraries.fresh
    original := some old.address
    mark := false
    configCandidate := configurator.configTrie
    candidatePluglibs := [] }

/-- The old plugin is not removed, and the options are used up. -/
def Configurator.takeOver (configurator : Configurator) (old : Holder) : Configurator :=
  let libraries := configurator.loop.libraries
  { configurator with
    loop := { configurator.loop with
      libraries := { libraries with fresh := libraries.fresh + 1 } }.modifyPlugin old.address
        fun plugin => { plugin with mark := false }
    configTrie := noOptions }

/-- A plugin with the same libname is copied. -/
def Configurator.keepPlugin (configurator : Configurator) (surroundings : Surroundings)
    (old : Holder) : Except Halt (Bool × Configurator) := do
  let (adopted, copied, new) ← (configurator.takeOver old).adoptPluglibs surroundings.disk
    (configurator.copyHolder old)
  if adopted then .ok (copied.configCheck surroundings new)
  else .ok (false, { copied with plugins := copied.plugins ++ [new] })

/-- What the failed plugin has registered stays there. -/
def Configurator.abandonPlugin (configurator : Configurator) (plugin : Holder) : Configurator :=
  { configurator.setLibraries (pluglibsUnlink plugin.pluglibs configurator.loop.libraries) with
    pluglibNames := [] }

def Configurator.linkPluglibs (configurator : Configurator) (disk : String → PluglibLoad)
    (plugin : Holder) : Except Halt (Bool × Configurator × Holder) :=
  if plugin.apiVersion = 0 then .ok (configurator.pluglibNames = [], configurator, plugin)
  else do
    let (installed, entries, libraries) ←
      installAll disk true configurator.pluglibNames [] configurator.loop.libraries
    let links := pluglibResolveFunctions libraries entries plugin.imports
    .ok (installed && links.isSome, { configurator.setLibraries libraries with pluglibNames := [] },
      { plugin with pluglibs := entries, links := links.getD [] })

def Configurator.newHolder (configurator : Configurator) (load : PluginLoad) (libname : String) :
    Holder where
  address := configurator.loop.libraries.fresh
  library := configurator.loop.libraries.fresh + 1
  libname := libname
  apiVersion := load.apiVersion
  imports := load.imports
  configTrie := noOptions
  configCandidate := configurator.configTrie
  pluglibs := []
  candidatePluglibs := []
  links := []
  fds := []
  original := none
  mark := true
  failed := 0

def Configurator.useOptions (configurator : Configurator) : Configurator :=
  let libraries := configurator.loop.libraries
  { configurator.setLibraries { libraries with fresh := libraries.fresh + 2 } with
    configTrie := noOptions }

/-- A signal in the callback abandons the plugin. -/
def Configurator.initPlugin (configurator : Configurator) (surroundings : Surroundings)
    (plugin : Holder) : Bool × Configurator :=
  let (loop, plugin) := configurator.loop.registerAll plugin surroundings.init
  let configurator := { configurator with loop := loop }
  if surroundings.initFails then (false, configurator.abandonPlugin plugin)
  else configurator.configCheck surroundings plugin

/-- Another plugin is loaded. Nothing is used up when there is no such library. -/
def Configurator.loadPlugin (configurator : Configurator) (surroundings : Surroundings)
    (libname : String) : Except Halt (Bool × Configurator) :=
  match surroundings.plugin with
  | none => .ok (false, configurator)
  | some load => do
    let (linked, started, new) ← configurator.useOptions.linkPluglibs surroundings.disk
      (configurator.newHolder load libname)
    if linked then .ok (started.initPlugin surroundings new)
    else .ok (false, started.abandonPlugin new)

def Configurator.loopAddPlugin (configurator : Configurator) (surroundings : Surroundings)
    (libname : String) : Except Halt (Bool × Configurator) :=
  match configurator.loop.plugins.find? fun old => old.libname = libname with
  | some old => configurator.keepPlugin surroundings old
  | none => configurator.loadPlugin surroundings libname

end Ucollect.Loading
