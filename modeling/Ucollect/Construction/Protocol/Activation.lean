import Ucollect.Construction.Core.UplinkFormat
import Ucollect.Construction.Master.Versions

/-
This file models the agreement of a client and the server on the active plugins.
-/

namespace Ucollect.Activation
open Library Core Master

/-- The messages of both directions are delivered in their order. -/
structure Agreement where
  plugins : List Plugin
  known : List Version
  table : List KnownPlugin
  rechecked : Bool
  routing : Plugins
  toServer : List Bytes
  toClient : List Bytes

/-- The connection of the client and the width of its sizes do not change. -/
structure Endpoint where
  sizeBits : Nat
  index : Nat
  cid : Bytes
  garbage : Bytes

inductive AgreementEvent where
  | reload (plugins : List Plugin)
  | serverReceives (order : List Change)
  | clientReceives
  | changeTable (table : List KnownPlugin)
  | recheck (order : List Change)
  deriving DecidableEq, Repr

/-- The names are different strings, and the other fields have their sizes. -/
def Loadable (sizeBits : Nat) (plugins : List Plugin) : Prop :=
  (plugins.map Plugin.name).Nodup ∧
    (∀ plugin ∈ plugins,
      0 ∉ plugin.name ∧ plugin.version < 2 ^ 16 ∧ plugin.hash.length = hashSize) ∧
    (plugins.map Plugin.describedSize).sum < 2 ^ sizeBits

instance (sizeBits : Nat) (plugins : List Plugin) : Decidable (Loadable sizeBits plugins) :=
  inferInstanceAs (Decidable (_ ∧ _))

/-- The server checks the versions and asks for the changes in the given order. -/
def Agreement.check (endpoint : Endpoint) (state : Agreement) (versions : List Version)
    (order : List Change) : Option Agreement :=
  if order.isPerm (requiredChanges state.table versions) then
    (state.routing.checkVersions endpoint.index endpoint.cid state.table state.known
        versions).bind fun routing =>
      let next := { state with
        routing := routing
        known := versions.map (·.settle state.table) }
      if order = [] then some next
      else (activationMessage order).map fun message =>
        { next with toClient := state.toClient ++ [letter 'A' :: message] }
  else none

/-- Only the lists of plugins say something to the server. -/
def Agreement.serverReceives (endpoint : Endpoint) (state : Agreement) (message : Bytes)
    (order : List Change) : Option Agreement :=
  match message with
  | [] => none
  | type :: params =>
    if type = letter 'V' then
      (handledVersions params).bind fun versions => state.check endpoint versions order
    else some state

def Agreement.announce (endpoint : Endpoint) (state : Agreement) : Option Agreement :=
  match pluginVersions endpoint.sizeBits state.plugins with
  | .error _ => none
  | .ok message => some { state with toServer := state.toServer ++ [letter 'V' :: message] }

def Agreement.clientReceives (endpoint : Endpoint) (state : Agreement) (message : Bytes) :
    Option Agreement :=
  match message with
  | [] => none
  | type :: params =>
    if type = letter 'A' then
      (readActivation params).bind fun (activations, _) =>
        let switched := switchPlugins state.plugins activations
        let next := { state with
          plugins := switched.plugins
          toServer := state.toServer ++ switched.missing.map fun activation =>
            letter 'E' :: activationError activation endpoint.garbage }
        if switched.changed then next.announce endpoint else some next
    else some state

def Agreement.step (endpoint : Endpoint) (state : Agreement) : AgreementEvent → Option Agreement
  | .reload plugins =>
    if Loadable endpoint.sizeBits plugins then { state with plugins := plugins }.announce endpoint
    else none
  | .serverReceives order =>
    match state.toServer with
    | [] => none
    | message :: rest => { state with toServer := rest }.serverReceives endpoint message order
  | .clientReceives =>
    match state.toClient with
    | [] => none
    | message :: rest => { state with toClient := rest }.clientReceives endpoint message
  | .changeTable table => some { state with table := table, rechecked := false }
  | .recheck order => { state with rechecked := true }.check endpoint state.known order

def Agreement.run (endpoint : Endpoint) (state : Agreement) :
    List AgreementEvent → Option Agreement
  | [] => some state
  | event :: events => (state.step endpoint event).bind fun next => next.run endpoint events

/-- The list of plugins is on its way after the login. -/
def Agreement.login (endpoint : Endpoint) (plugins : List Plugin) (table : List KnownPlugin)
    (routing : Plugins) : Option Agreement :=
  if Loadable endpoint.sizeBits plugins then
    Agreement.announce endpoint
      { plugins := plugins
        known := []
        table := table
        rechecked := true
        routing := routing
        toServer := []
        toClient := [] }
  else none

end Ucollect.Activation
