import Ucollect.Construction.Loading.Configurator

/-
This file models the transactions of the configuration in core/loop.c and core/configure.c, and the
recovery after a plugin has crashed.
-/

namespace Ucollect.Loading

/-- The timeouts and the descriptors of the plugin are removed by its address and its list. -/
def Loop.dropPlugin (loop : Loop) (plugin : Holder) : Loop :=
  { loop with
    timeouts := loop.timeouts.filter fun context => context ≠ some plugin.address
    handlers := loop.handlers.filter fun handler => handler.node ∉ plugin.fds
    libraries := pluglibsUnlink plugin.pluglibs loop.libraries }

/-- The plugin may say goodbye unless it has crashed. -/
def Loop.pluginDestroy (loop : Loop) (plugin : Holder) (finish : List Registration) : Loop :=
  let (loop, plugin) := loop.registerAll plugin finish
  loop.dropPlugin plugin

/-- One plugin of a configurator that is given up. -/
def Loop.abortPlugin (callbacks : Callbacks) (loop : Loop) (plugin : Holder) : Loop :=
  if plugin.mark then loop.pluginDestroy plugin (callbacks.finish plugin)
  else
    let (loop, plugin) := loop.registerAll plugin (callbacks.configFinish plugin)
    loop.shareFds plugin

def loopConfigAbort (callbacks : Callbacks) (configurator : Configurator) : Loop :=
  let loop := configurator.plugins.foldl (Loop.abortPlugin callbacks) configurator.loop
  { loop with libraries := pluglibsCleanup loop.libraries }

def Loop.removeMarked (callbacks : Callbacks) (loop : Loop) (plugin : Holder) : Loop :=
  if plugin.mark then loop.pluginDestroy plugin (callbacks.finish plugin) else loop

/-- What belongs to the original belongs to the copy from now on. -/
def Loop.migrate (loop : Loop) (plugin : Holder) : Loop :=
  { loop with
    timeouts := loop.timeouts.map fun context =>
      if context = plugin.original then some plugin.address else context
    handlers := loop.handlers.map fun handler =>
      if handler.node ∈ plugin.fds then { handler with plugin := plugin.address } else handler }

/-- An empty list of new libraries changes nothing. -/
def migratePluglibs (libraries : Libraries) (plugin : Holder) : Except Halt (Libraries × Holder) :=
  if plugin.candidatePluglibs = [] then .ok (libraries, plugin)
  else
    let libraries := pluglibsLink plugin.candidatePluglibs
      (pluglibsUnlink plugin.pluglibs libraries)
    match pluglibResolveFunctions libraries plugin.candidatePluglibs plugin.imports with
    | none => .error .unresolved
    | some links =>
      .ok (libraries, { plugin with
        pluglibs := plugin.candidatePluglibs
        candidatePluglibs := []
        links := links })

def Loop.commitPlugin (pair : Loop × List Holder) (plugin : Holder) :
    Except Halt (Loop × List Holder) :=
  if plugin.mark then .ok (pair.1, pair.2 ++ [plugin])
  else do
    let (libraries, plugin) ← migratePluglibs pair.1.libraries plugin
    .ok ({ pair.1.migrate plugin with libraries := libraries }, pair.2 ++ [plugin])

/-- The new options hold, and the plugin is told. -/
def Loop.finishPlugin (callbacks : Callbacks) (pair : Loop × List Holder) (plugin : Holder) :
    Loop × List Holder :=
  let plugin := { plugin with configTrie := plugin.configCandidate, configCandidate := noOptions }
  let (loop, plugin) := pair.1.registerAll plugin (callbacks.configFinish plugin)
  (loop, pair.2 ++ [plugin])

def loopConfigCommit (callbacks : Callbacks) (configurator : Configurator) : Except Halt Loop := do
  let loop := configurator.loop.plugins.foldl (Loop.removeMarked callbacks) configurator.loop
  let (loop, plugins) ← configurator.plugins.foldlM Loop.commitPlugin (loop, [])
  let (loop, plugins) := plugins.foldl (Loop.finishPlugin callbacks) (loop, [])
  .ok { loop with plugins := plugins, libraries := pluglibsCleanup loop.libraries }

/-- A section of the configuration is a plugin, or something else that is accepted or not. -/
inductive Section where
  | plugin (libname : String) (options : List (String × String)) (surroundings : Surroundings)
  | other (accepted : Bool)

/-- The libraries are set before the options, and their names are options too. -/
def Configurator.loadSection (configurator : Configurator) :
    Section → Except Halt (Bool × Configurator)
  | .other accepted => .ok (accepted, configurator)
  | .plugin libname options surroundings =>
    let pluglibs := (options.filter fun option => option.1 = "pluglib").map Prod.snd
    let configurator := pluglibs.foldl setPluglib configurator
    let configurator := options.foldl (fun configurator (name, value) =>
      configurator.setPluginOpt name value) configurator
    configurator.loopAddPlugin surroundings libname

/-- The first section that fails ends the loading. -/
def Configurator.loadPackage : List Section → Configurator → Except Halt (Bool × Configurator)
  | [], configurator => .ok (true, configurator)
  | item :: items, configurator => do
    match ← configurator.loadSection item with
    | (false, configurator) => .ok (false, configurator)
    | (true, configurator) => loadPackage items configurator

def loadConfig (callbacks : Callbacks) (sections : List Section) (loop : Loop) :
    Except Halt Loop := do
  match ← (loopConfigStart loop).loadPackage sections with
  | (true, configurator) => loopConfigCommit callbacks configurator
  | (false, configurator) => .ok (loopConfigAbort callbacks configurator)

def failCount : Nat := 5

/-- The options and the libraries of the plugin are set once more. -/
def Configurator.configCopy (configurator : Configurator) (plugin : Holder) : Configurator :=
  { configurator with
    configTrie := fun name => configurator.configTrie name ++ plugin.configTrie name
    pluglibNames := configurator.pluglibNames ++ plugin.configTrie "pluglib" }

/-- This is what the recovery knows about the plugin that has crashed. -/
structure Crash where
  reinit : Bool
  libname : String
  failed : Nat

def setLastFailed (failed : Nat) : List Holder → List Holder
  | [] => []
  | [plugin] => [{ plugin with failed := failed }]
  | plugin :: rest => plugin :: setLastFailed failed rest

/-- A plugin without the mark is the one that has crashed. -/
def Configurator.visit (crash : Crash) (surroundings : Surroundings) (configurator : Configurator)
    (plugin : Holder) : Except Halt Configurator :=
  let configurator := configurator.configCopy plugin
  if plugin.mark then do
    match ← configurator.loopAddPlugin surroundings plugin.libname with
    | (true, configurator) => .ok configurator
    | (false, _) => .error .copyFailed
  else if crash.reinit then do
    match ← configurator.loopAddPlugin surroundings crash.libname with
    | (true, configurator) => .ok { configurator with
        plugins := setLastFailed (crash.failed + 1) configurator.plugins }
    | (false, configurator) => .ok configurator
  else .ok configurator

/-- The holders are visited in place, as their marks change on the way. -/
def Configurator.visitAll (crash : Crash) (surroundings : Nat → Surroundings) :
    List Nat → Configurator → Except Halt Configurator
  | [], configurator => .ok configurator
  | position :: rest, configurator =>
    match configurator.loop.plugins[position]? with
    | none => .error .strayPlugin
    | some plugin => do
      let configurator ← configurator.visit crash (surroundings position) plugin
      configurator.visitAll crash surroundings rest

/-- The plugin is not picked up as a loaded one. -/
def Configurator.hidePlugin (configurator : Configurator) (address : Nat) : Configurator :=
  { configurator with
    loop := configurator.loop.modifyPlugin address fun plugin =>
      { plugin with mark := false, libname := "" } }

/-- The recovery in `loop_run`. A plugin that has asked for it is always loaded again. -/
def recover (callbacks : Callbacks) (surroundings : Nat → Surroundings) (failure : Bool)
    (holder : Holder) (loop : Loop) : Except Halt Loop := do
  let crash : Crash := ⟨!failure || holder.failed < failCount, holder.libname,
    if failure then holder.failed else 0⟩
  let configurator := (loopConfigStart (loop.dropPlugin holder)).hidePlugin holder.address
  let configurator ← configurator.visitAll crash surroundings (List.range loop.plugins.length)
  loopConfigCommit callbacks configurator

/-- What happens to the loop. A full reconfiguration starts with an empty one. -/
inductive LoopEvent where
  | callback (position : Nat) (registrations : List Registration)
  | timeoutGone (position : Nat)
  | unregister (position : Nat) (node : Nat)
  | reconfigure (full : Option Callbacks) (callbacks : Callbacks) (sections : List Section)
  | recovery (position : Nat) (failure : Bool) (callbacks : Callbacks)
      (surroundings : Nat → Surroundings)

def Loop.runCallback (loop : Loop) (plugin : Holder) (registrations : List Registration) : Loop :=
  let (loop, changed) := loop.registerAll plugin registrations
  loop.modifyPlugin plugin.address fun _ => changed

/-- A descriptor that the plugin does not have is ignored. -/
def Loop.unregisterFd (loop : Loop) (plugin : Holder) (node : Nat) : Loop :=
  if node ∈ plugin.fds then
    { loop with handlers := loop.handlers.filter fun handler => handler.node ≠ node }.modifyPlugin
      plugin.address fun plugin => { plugin with fds := plugin.fds.filter (· ≠ node) }
  else loop

def Loop.step (loop : Loop) : LoopEvent → Except Halt Loop
  | .callback position registrations =>
    match loop.plugins[position]? with
    | none => .ok loop
    | some plugin => .ok (loop.runCallback plugin registrations)
  | .timeoutGone position => .ok { loop with timeouts := loop.timeouts.eraseIdx position }
  | .unregister position node =>
    match loop.plugins[position]? with
    | none => .ok loop
    | some plugin => .ok (loop.unregisterFd plugin node)
  | .reconfigure none callbacks sections => loadConfig callbacks sections loop
  | .reconfigure (some wipe) callbacks sections => do
    let loop ← loopConfigCommit wipe (loopConfigStart loop)
    loadConfig callbacks sections loop
  | .recovery position failure callbacks surroundings =>
    match loop.plugins[position]? with
    | none => .ok loop
    | some holder => recover callbacks surroundings failure holder loop

def Loop.run (loop : Loop) (events : List LoopEvent) : Except Halt Loop := events.foldlM step loop

def Loop.empty : Loop := ⟨[], ⟨[], 0, false⟩, [], []⟩

end Ucollect.Loading
