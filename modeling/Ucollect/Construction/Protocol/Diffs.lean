import Ucollect.Construction.Diffstore.Store
import Ucollect.Construction.Master.DiffCache

/-
This file models how plugins/flow/main.c and master/flow_plugin.py keep one store up to date.
-/

namespace Ucollect.Diffs
open Library Diffstore Master

structure Target where
  epoch : Nat
  version : Nat
  deriving DecidableEq, Repr

/-- A full request starts at version 0. -/
structure Request where
  full : Bool
  epoch : Nat
  fromVersion : Nat
  toVersion : Nat
  deriving DecidableEq, Repr

/-- An answer repeats its request. -/
inductive Message where
  | offer (target : Target)
  | diff (request : Request) (body : Bytes)

/-- The server reads the versions from time to time, and the channels keep the order. -/
structure System where
  histories : Nat → History
  newest : Nat
  addresses : Option Target
  lastOffer : Option Target
  toClient : List Message
  toServer : List Request
  store : Store

def System.start : System where
  histories := fun _ => []
  newest := 0
  addresses := none
  lastOffer := none
  toClient := []
  toServer := []
  store := .init

/-- A run ends when a diff is corrupted, or when the client asks for its whole configuration. -/
inductive Stop where
  | corrupted
  | configReload
  deriving DecidableEq, Repr

section Server

variable (system : System)

/-- An epoch without rows does not appear in the result of the query. -/
def System.versionQuery : Option Target :=
  if (system.histories system.newest).length = 0 then none
  else some ⟨system.newest, (system.histories system.newest).length⟩

def System.grow (epoch : Nat) (batch : Batch) : System :=
  { system with
    histories := Function.update system.histories epoch (system.histories epoch ++ [batch])
    newest := max system.newest epoch }

/-- This sends the version that the server has read last. -/
def System.sendVersion : System :=
  match system.addresses with
  | none => system
  | some target =>
    { system with toClient := system.toClient ++ [.offer target], lastOffer := some target }

/-- This is `__check_conf`, and a new version is broadcast. -/
def System.checkConf : System :=
  let addresses := system.versionQuery
  if system.addresses = addresses then system
  else System.sendVersion { system with addresses }

/-- This is `_provide_diff`. -/
def System.provideDiff : System :=
  match system.toServer with
  | [] => system
  | request :: rest =>
    let fromVersion := if request.full then 0 else request.fromVersion
    let body := (system.histories request.epoch).diffUpdate request.full fromVersion
      request.toVersion
    { system with toServer := rest, toClient := system.toClient ++ [.diff request body] }

end Server

section Client

variable (system : System)

/-- This is `handle_filter_action`. -/
def System.handleFilterAction (action : Action) (epoch newVersion : Nat) : Except Stop System :=
  match action with
  | .noAction => .ok system
  | .configReload => .error .configReload
  | .full => .ok { system with toServer := system.toServer ++ [⟨true, epoch, 0, newVersion⟩] }
  | .incremental oldVersion =>
    .ok { system with toServer := system.toServer ++ [⟨false, epoch, oldVersion, newVersion⟩] }

/-- This is `communicate` with an offer or a difference. -/
def System.communicate : Except Stop System :=
  match system.toClient with
  | [] => .ok system
  | .offer target :: rest =>
    System.handleFilterAction { system with toClient := rest }
      (diffAddrStoreAction system.store target.epoch target.version) target.epoch target.version
  | .diff request body :: rest =>
    match diffAddrStoreApply system.store request.full request.epoch request.fromVersion
      request.toVersion body with
    | none => .error .corrupted
    | some (store, action, _) =>
      System.handleFilterAction { system with toClient := rest, store } action request.epoch
        request.toVersion

end Client

/-- A check may happen at any time, and so may a new offer of the version that is known. -/
inductive Event where
  | grow (epoch : Nat) (batch : Batch)
  | check
  | offer
  | answer
  | receive

def System.step (system : System) : Event → Except Stop System
  | .grow epoch batch => .ok (system.grow epoch batch)
  | .check => .ok system.checkConf
  | .offer => .ok system.sendVersion
  | .answer => .ok system.provideDiff
  | .receive => system.communicate

def System.run (system : System) (events : List Event) : Except Stop System :=
  events.foldlM System.step system

end Ucollect.Diffs
