import Ucollect.Construction.Master.Versions
import Mathlib.Tactic

/-
This file proves which connection stands behind an active plugin of the routing.
-/

namespace Ucollect.Master
open Library List Option

/-- The connection asked for this plugin to be active or inactive. -/
def requests (calls : List Call) (plugin : Bytes) (index : Nat) : List Bool :=
  calls.filterMap fun call => match call with
    | .activate other connection => if other = plugin ∧ connection = index then some true else none
    | .deactivate other connection =>
      if other = plugin ∧ connection = index then some false else none
    | _ => none

/-- The plugin is told that the client is connected or disconnected. -/
def notices (calls : List Call) (plugin cid : Bytes) : List Bool :=
  calls.filterMap fun call => match call with
    | .clientConnected other client => if other = plugin ∧ client = cid then some true else none
    | .clientDisconnected other client =>
      if other = plugin ∧ client = cid then some false else none
    | _ => none

/-- The values at the even positions are true, and the others are false. -/
def Alternates (values : List Bool) : Prop :=
  ∀ (position : Nat) (value : Bool), values[position]? = some value → value = (position % 2 == 0)

/-- The registered connection is behind each active plugin, and the plugins see the clients come
and go in turns. -/
structure Routed (routing : Plugins) : Prop where
  own : ∀ plugin cid, routing.activations plugin cid = true → ∃ index,
    routing.clients cid = some index ∧
      (requests routing.calls plugin index).getLast? = some true
  turns : ∀ plugin cid, Alternates (notices routing.calls plugin cid)

section Turns

variable {routing : Plugins}

/-- An active client was told to the plugin the last time. -/
def Balanced (routing : Plugins) : Prop :=
  ∀ plugin cid, Alternates (notices routing.calls plugin cid) ∧
    routing.activations plugin cid = ((notices routing.calls plugin cid).length % 2 == 1)

theorem alternates_concat {values : List Bool} (alternates : Alternates values) :
    Alternates (values ++ [values.length % 2 == 0]) := by
  intro position value found
  by_cases old : position < values.length
  · rw [List.getElem?_append_left old] at found
    exact alternates position value found
  · obtain ⟨small, _⟩ := List.getElem?_eq_some_iff.mp found
    rw [length_append, length_singleton] at small
    have last : position = values.length := by omega
    subst last
    rw [List.getElem?_concat_length] at found
    exact (Option.some.inj found).symm

theorem notices_append (first second : List Call) (plugin cid : Bytes) :
    notices (first ++ second) plugin cid = notices first plugin cid ++ notices second plugin cid :=
  filterMap_append

section

variable (balanced : Balanced routing)
include balanced

/-- A switch of the activation tells the plugin about it. -/
theorem switch_balanced {plugin cid : Bytes} {active : Bool}
    (changes : routing.activations plugin cid ≠ active) {news : List Call}
    (told : notices news plugin cid = [active])
    (others : ∀ otherPlugin otherCid, ¬ (otherPlugin = plugin ∧ otherCid = cid) →
      notices news otherPlugin otherCid = []) :
    Balanced ((routing.setActivation plugin cid active).call news) := by
  intro otherPlugin otherCid
  obtain ⟨alternates, parity⟩ := balanced otherPlugin otherCid
  have calls : ((routing.setActivation plugin cid active).call news).calls =
      routing.calls ++ news := rfl
  have activations : ((routing.setActivation plugin cid active).call news).activations
      otherPlugin otherCid = if otherPlugin = plugin ∧ otherCid = cid then active
        else routing.activations otherPlugin otherCid := rfl
  rw [calls, notices_append, activations]
  by_cases same : otherPlugin = plugin ∧ otherCid = cid
  · obtain ⟨rfl, rfl⟩ := same
    have next : active = ((notices routing.calls otherPlugin otherCid).length % 2 == 0) := by
      rw [parity] at changes
      rcases Nat.mod_two_eq_zero_or_one (notices routing.calls otherPlugin otherCid).length
        with even | odd
      · rw [even] at changes ⊢
        exact (Bool.eq_not.mpr changes.symm)
      · rw [odd] at changes ⊢
        exact (Bool.eq_not.mpr changes.symm)
    rw [told, if_pos ⟨rfl, rfl⟩]
    constructor
    · rw [next]
      exact alternates_concat alternates
    · rw [next, length_append, length_singleton]
      rcases Nat.mod_two_eq_zero_or_one (notices routing.calls otherPlugin otherCid).length
        with even | odd
      · rw [Nat.add_mod, even]
        rfl
      · rw [Nat.add_mod, odd]
        rfl
  · rw [others otherPlugin otherCid same, append_nil, if_neg same]
    exact ⟨alternates, parity⟩

/-- A request alone tells nothing to a plugin. -/
theorem request_balanced {news : List Call} (silent : ∀ plugin cid, notices news plugin cid = []) :
    Balanced (routing.call news) := by
  intro plugin cid
  have calls : (routing.call news).calls = routing.calls ++ news := rfl
  rw [calls, notices_append, silent, append_nil]
  exact balanced plugin cid

theorem activateClient_balanced (plugin : Bytes) (index : Nat) (cid : Bytes) :
    Balanced (routing.activateClient plugin index cid) := by
  have asked : Balanced (routing.call [.activate plugin index]) :=
    request_balanced balanced fun _ _ => rfl
  rw [Plugins.activateClient]
  split
  · exact asked
  · next inactive =>
      apply switch_balanced asked inactive
      · simp [notices]
      · intro otherPlugin otherCid other
        simp only [notices, filterMap_cons, filterMap_nil]
        rw [if_neg fun same => other ⟨same.1.symm, same.2.symm⟩]

theorem deactivateClient_balanced (plugin : Bytes) (index : Nat) (cid : Bytes) :
    Balanced (routing.deactivateClient plugin index cid) := by
  have asked : Balanced (routing.call [.deactivate plugin index]) :=
    request_balanced balanced fun _ _ => rfl
  rw [Plugins.deactivateClient]
  split
  · next active =>
      apply switch_balanced asked
      · rw [active]
        decide
      · simp [notices]
      · intro otherPlugin otherCid other
        simp only [notices, filterMap_cons, filterMap_nil]
        rw [if_neg fun same => other ⟨same.1.symm, same.2.symm⟩]
  · exact asked

theorem deactivateAll_balanced (index : Nat) (cid : Bytes) (plugins : List Bytes) :
    Balanced (routing.deactivateAll index cid plugins) := by
  induction plugins generalizing routing with
  | nil => exact balanced
  | cons plugin plugins ih =>
    rw [Plugins.deactivateAll]
    apply ih
    split
    · exact deactivateClient_balanced balanced plugin index cid
    · exact balanced

theorem unregisterClient_balanced (index : Nat) (cid : Bytes) :
    Balanced (routing.unregisterClient index cid) := by
  rw [Plugins.unregisterClient]
  split
  · exact deactivateAll_balanced balanced index cid routing.plugins
  · exact balanced

theorem connectionLost_balanced (index : Nat) : Balanced (routing.connectionLost index) := by
  rw [Plugins.connectionLost]
  split
  · exact balanced
  · next connection _ =>
      split
      · have disconnected : Balanced
            (routing.setConnection index { connection with connected := false }) := balanced
        simp only
        split
        · exact unregisterClient_balanced disconnected index connection.cid
        · exact disconnected
      · exact balanced

theorem registerClient_balanced (index : Nat) (connection : Connection) :
    Balanced (routing.registerClient index connection).1 := by
  rw [Plugins.registerClient]
  split
  · exact balanced
  · next old oldConnection _ =>
      split
      · exact balanced
      · split
        · exact connectionLost_balanced balanced old
        · exact balanced

theorem step_balanced {event : RoutingEvent} {next : Plugins}
    (stepped : routing.step event = some next) : Balanced next := by
  cases event with
  | connectionMade cid sessionId =>
    cases stepped
    exact balanced
  | tick seconds =>
    cases stepped
    exact balanced
  | pong index =>
    obtain ⟨connection, _, rfl⟩ := map_eq_some_iff.mp stepped
    exact balanced
  | registerClient index =>
    obtain ⟨connection, _, stepped⟩ := bind_eq_some_iff.mp stepped
    have registered := registerClient_balanced balanced index connection
    split at stepped
    · cases stepped
    · split at stepped
      · next accepted result =>
          obtain ⟨_, _, rfl⟩ := map_eq_some_iff.mp stepped
          rw [result] at registered
          exact registered
      · next refused result =>
          cases stepped
          rw [result] at registered
          exact registered
  | unregisterClient index =>
    obtain ⟨connection, _, rfl⟩ := map_eq_some_iff.mp stepped
    exact unregisterClient_balanced balanced index connection.cid
  | activateClient plugin index =>
    obtain ⟨connection, _, stepped⟩ := bind_eq_some_iff.mp stepped
    split at stepped
    · cases stepped
      exact activateClient_balanced balanced plugin index connection.cid
    · cases stepped
  | deactivateClient plugin index =>
    obtain ⟨connection, _, stepped⟩ := bind_eq_some_iff.mp stepped
    split at stepped
    · cases stepped
      exact deactivateClient_balanced balanced plugin index connection.cid
    · cases stepped
  | connectionLost index =>
    cases stepped
    exact connectionLost_balanced balanced index

end

end Turns

section Owners

variable {routing : Plugins}

/-- The routing knows the connections under their own names. -/
structure Owned (routing : Plugins) : Prop where
  own : ∀ plugin cid, routing.activations plugin cid = true → ∃ index,
    routing.clients cid = some index ∧
      (requests routing.calls plugin index).getLast? = some true
  named : ∀ cid index, routing.clients cid = some index →
    ∃ connection, routing.connections[index]? = some connection ∧ connection.cid = cid
  listed : ∀ plugin cid, routing.activations plugin cid = true → plugin ∈ routing.plugins

theorem requests_append (first second : List Call) (plugin : Bytes) (index : Nat) :
    requests (first ++ second) plugin index =
      requests first plugin index ++ requests second plugin index :=
  filterMap_append

variable {index : Nat} {plugin : Bytes}

/-- Requests of other connections or for other plugins do not count. -/
theorem requests_other {other : Bytes} {connection : Nat} {request : Call}
    (shape : request = .activate other connection ∨ request = .deactivate other connection)
    (different : ¬ (other = plugin ∧ connection = index)) (calls : List Call) :
    requests (calls ++ [request]) plugin index = requests calls plugin index := by
  rw [requests_append]
  rcases shape with rfl | rfl
  · simp only [requests, filterMap_cons, filterMap_nil, if_neg different, append_nil]
  · simp only [requests, filterMap_cons, filterMap_nil, if_neg different, append_nil]

theorem requests_activate (calls : List Call) (plugin : Bytes) (index : Nat) :
    (requests (calls ++ [.activate plugin index]) plugin index).getLast? = some true := by
  rw [requests_append]
  simp [requests]

theorem activate_owned (owned : Owned routing) : Owned (routing.call [.activate plugin index]) where
  own otherPlugin otherCid active := by
    obtain ⟨connection, client, last⟩ := owned.own otherPlugin otherCid active
    refine ⟨connection, client, ?_⟩
    change (requests (routing.calls ++ [.activate plugin index]) otherPlugin connection).getLast? =
      some true
    by_cases same : plugin = otherPlugin ∧ index = connection
    · rw [← same.1, ← same.2]
      exact requests_activate routing.calls plugin index
    · rw [requests_other (.inl rfl) same]
      exact last
  named := owned.named
  listed := owned.listed

variable {cid : Bytes}

theorem told_requests {news : List Call}
    (shape : news = [.clientConnected plugin cid] ∨ news = [.clientDisconnected plugin cid])
    (calls : List Call) (other : Bytes) (index : Nat) :
    requests (calls ++ news) other index = requests calls other index := by
  rw [requests_append]
  rcases shape with rfl | rfl <;> exact append_nil _

theorem activateClient_owned (owned : Owned routing) (known : plugin ∈ routing.plugins)
    (registered : routing.clients cid = some index ∨ routing.activations plugin cid = true) :
    Owned (routing.activateClient plugin index cid) := by
  have asked : Owned (routing.call [.activate plugin index]) := activate_owned owned
  rw [Plugins.activateClient]
  split
  · exact asked
  · next inactive =>
      have client : routing.clients cid = some index := registered.resolve_right inactive
      refine ⟨fun otherPlugin otherCid active => ?_, asked.named, fun otherPlugin otherCid active => ?_⟩
      · change (if otherPlugin = plugin ∧ otherCid = cid then true
          else routing.activations otherPlugin otherCid) = true at active
        by_cases same : otherPlugin = plugin ∧ otherCid = cid
        · obtain ⟨rfl, rfl⟩ := same
          refine ⟨index, client, ?_⟩
          change (requests ((routing.calls ++ [.activate otherPlugin index]) ++ [_]) _ _).getLast? = _
          rw [told_requests (.inl rfl)]
          exact requests_activate routing.calls otherPlugin index
        · rw [if_neg same] at active
          obtain ⟨connection, found, last⟩ := asked.own otherPlugin otherCid active
          refine ⟨connection, found, ?_⟩
          change (requests ((routing.calls ++ [.activate plugin index]) ++ [_]) _ _).getLast? = _
          rw [told_requests (.inl rfl)]
          exact last
      · change (if otherPlugin = plugin ∧ otherCid = cid then true
          else routing.activations otherPlugin otherCid) = true at active
        by_cases same : otherPlugin = plugin ∧ otherCid = cid
        · rw [same.1]
          exact known
        · rw [if_neg same] at active
          exact owned.listed otherPlugin otherCid active

variable {connection : Connection}

/-- A connection knows its own name, so it takes nothing from another client. -/
theorem deactivateClient_owned (owned : Owned routing)
    (found : routing.connections[index]? = some connection) (name : connection.cid = cid) :
    Owned (routing.deactivateClient plugin index cid) := by
  -- Every activation that stays belongs to another connection or to another plugin.
  have kept : ∀ otherPlugin otherCid, routing.activations otherPlugin otherCid = true →
      ¬ (otherPlugin = plugin ∧ otherCid = cid) → ∃ other,
        routing.clients otherCid = some other ∧
          (requests (routing.calls ++ [.deactivate plugin index]) otherPlugin other).getLast? =
            some true := by
    intro otherPlugin otherCid active different
    obtain ⟨other, client, last⟩ := owned.own otherPlugin otherCid active
    refine ⟨other, client, ?_⟩
    rw [requests_other (.inr rfl)]
    · exact last
    · rintro ⟨rfl, rfl⟩
      obtain ⟨same, sameFound, sameName⟩ := owned.named otherCid index client
      rw [found] at sameFound
      cases sameFound
      exact different ⟨rfl, sameName.symm.trans name⟩
  rw [Plugins.deactivateClient]
  split
  · refine ⟨fun otherPlugin otherCid active => ?_, owned.named, fun otherPlugin otherCid active => ?_⟩
    · change (if otherPlugin = plugin ∧ otherCid = cid then false
        else routing.activations otherPlugin otherCid) = true at active
      by_cases same : otherPlugin = plugin ∧ otherCid = cid
      · rw [if_pos same] at active
        cases active
      · rw [if_neg same] at active
        obtain ⟨other, client, last⟩ := kept otherPlugin otherCid active same
        refine ⟨other, client, ?_⟩
        change (requests ((routing.calls ++ [.deactivate plugin index]) ++ [_]) _ _).getLast? = _
        rw [told_requests (.inr rfl)]
        exact last
    · change (if otherPlugin = plugin ∧ otherCid = cid then false
        else routing.activations otherPlugin otherCid) = true at active
      by_cases same : otherPlugin = plugin ∧ otherCid = cid
      · rw [if_pos same] at active
        cases active
      · rw [if_neg same] at active
        exact owned.listed otherPlugin otherCid active
  · next inactive =>
      refine ⟨fun otherPlugin otherCid active => kept otherPlugin otherCid active ?_, owned.named,
        owned.listed⟩
      rintro ⟨rfl, rfl⟩
      exact inactive active

@[simp] theorem deactivateClient_clients (plugin : Bytes) (index : Nat) (cid : Bytes) :
    (routing.deactivateClient plugin index cid).clients = routing.clients := by
  rw [Plugins.deactivateClient]
  split <;> rfl

@[simp] theorem deactivateClient_connections (plugin : Bytes) (index : Nat) (cid : Bytes) :
    (routing.deactivateClient plugin index cid).connections = routing.connections := by
  rw [Plugins.deactivateClient]
  split <;> rfl

@[simp] theorem deactivateClient_plugins (plugin : Bytes) (index : Nat) (cid : Bytes) :
    (routing.deactivateClient plugin index cid).plugins = routing.plugins := by
  rw [Plugins.deactivateClient]
  split <;> rfl

theorem deactivateClient_activations (plugin : Bytes) (index : Nat) (cid otherPlugin otherCid : Bytes) :
    (routing.deactivateClient plugin index cid).activations otherPlugin otherCid =
      (routing.activations otherPlugin otherCid && !(otherPlugin = plugin ∧ otherCid = cid)) := by
  rw [Plugins.deactivateClient]
  split
  · change (if otherPlugin = plugin ∧ otherCid = cid then false
      else routing.activations otherPlugin otherCid) = _
    by_cases same : otherPlugin = plugin ∧ otherCid = cid <;> simp [same]
  · next inactive =>
      change routing.activations otherPlugin otherCid = _
      by_cases same : otherPlugin = plugin ∧ otherCid = cid
      · obtain ⟨rfl, rfl⟩ := same
        have off : routing.activations otherPlugin otherCid = false :=
          Bool.eq_false_of_not_eq_true inactive
        simp [off]
      · simp [same]

/-- The loop over the plugins keeps the owners and takes all activations of the client. -/
structure Cleared (routing : Plugins) (cid : Bytes) (names : List Bytes) (next : Plugins) :
    Prop where
  owned : Owned next
  clients : next.clients = routing.clients
  connections : next.connections = routing.connections
  plugins : next.plugins = routing.plugins
  cleared : ∀ plugin ∈ names, next.activations plugin cid = false
  shrinks : ∀ plugin other, next.activations plugin other = true →
    routing.activations plugin other = true

section

variable (owned : Owned routing)
include owned

theorem deactivateAll_cleared (found : routing.connections[index]? = some connection)
    (name : connection.cid = cid) (names : List Bytes) :
    Cleared routing cid names (routing.deactivateAll index cid names) := by
  induction names generalizing routing with
  | nil =>
    exact ⟨owned, rfl, rfl, rfl, fun _ impossible => absurd impossible not_mem_nil,
      fun _ _ active => active⟩
  | cons plugin names ih =>
    rw [Plugins.deactivateAll]
    by_cases active : routing.activations plugin cid = true
    · have next : Owned (routing.deactivateClient plugin index cid) :=
        deactivateClient_owned owned found name
      rw [if_pos active]
      have rest := ih next (by rw [deactivateClient_connections, found])
      refine ⟨rest.owned, rest.clients.trans (by simp), rest.connections.trans (by simp),
        rest.plugins.trans (by simp), ?_, ?_⟩
      · rw [forall_mem_cons]
        refine ⟨?_, rest.cleared⟩
        by_contra still
        have before := rest.shrinks plugin cid (Bool.not_eq_false _ ▸ still)
        rw [deactivateClient_activations] at before
        simp at before
      · intro other otherCid still
        have before := rest.shrinks other otherCid still
        rw [deactivateClient_activations, Bool.and_eq_true] at before
        exact before.1
    · rw [if_neg active]
      have rest := ih owned found
      refine ⟨rest.owned, rest.clients, rest.connections, rest.plugins, ?_, rest.shrinks⟩
      rw [forall_mem_cons]
      refine ⟨?_, rest.cleared⟩
      by_contra still
      exact active (rest.shrinks plugin cid (Bool.not_eq_false _ ▸ still))

/-- Nothing is active for a client that is not registered. -/
theorem Owned.inactive (unknown : routing.clients cid = none) (plugin : Bytes) :
    routing.activations plugin cid = false := by
  by_contra active
  obtain ⟨index, client, _⟩ := owned.own plugin cid (Bool.not_eq_false _ ▸ active)
  rw [unknown] at client
  cases client

/-- A new owner takes the place of one without activations. -/
theorem setClient_owned {client : Option Nat}
    (inactive : ∀ plugin, routing.activations plugin cid = false)
    (named : ∀ index, client = some index →
      ∃ connection, routing.connections[index]? = some connection ∧ connection.cid = cid) :
    Owned (routing.setClient cid client) where
  own plugin otherCid active := by
    obtain ⟨index, found, last⟩ := owned.own plugin otherCid active
    have other : otherCid ≠ cid := by
      rintro rfl
      have off := inactive plugin
      change routing.activations plugin otherCid = true at active
      rw [off] at active
      cases active
    exact ⟨index, (if_neg other).trans found, last⟩
  named otherCid index found := by
    change (if otherCid = cid then client else routing.clients otherCid) = some index at found
    by_cases same : otherCid = cid
    · rw [if_pos same] at found
      rw [same]
      exact named index found
    · rw [if_neg same] at found
      exact owned.named otherCid index found
  listed := owned.listed

theorem unregisterClient_owned (found : routing.connections[index]? = some connection)
    (name : connection.cid = cid) :
    Owned (routing.unregisterClient index cid) := by
  rw [Plugins.unregisterClient]
  split
  · have cleared := deactivateAll_cleared owned found name routing.plugins
    apply setClient_owned cleared.owned
    · intro plugin
      by_contra active
      have before := cleared.shrinks plugin cid (Bool.not_eq_false _ ▸ active)
      exact active (cleared.cleared plugin (owned.listed plugin cid before))
    · exact fun _ impossible => by cases impossible
  · exact owned

/-- The name of a connection stays. -/
theorem setConnection_owned {next : Connection}
    (found : routing.connections[index]? = some connection) (same : next.cid = connection.cid) :
    Owned (routing.setConnection index next) where
  own := owned.own
  named cid other client := by
    obtain ⟨old, oldFound, name⟩ := owned.named cid other client
    by_cases here : index = other
    · subst here
      rw [found] at oldFound
      cases oldFound
      refine ⟨next, ?_, same.trans name⟩
      exact List.getElem?_set_self (List.getElem?_eq_some_iff.mp found).1
    · exact ⟨old, (List.getElem?_set_ne here).trans oldFound, name⟩
  listed := owned.listed

theorem connectionLost_owned (index : Nat) : Owned (routing.connectionLost index) := by
  rw [Plugins.connectionLost]
  split
  · exact owned
  · next connection found =>
      split
      · have disconnected : Owned
            (routing.setConnection index { connection with connected := false }) :=
          setConnection_owned owned found rfl
        simp only
        split
        · refine unregisterClient_owned disconnected
            (List.getElem?_set_self (List.getElem?_eq_some_iff.mp found).1) rfl
        · exact disconnected
      · exact owned

end

theorem unregisterClient_unknown (client : routing.clients cid = some index) :
    (routing.unregisterClient index cid).clients cid = none := by
  rw [Plugins.unregisterClient, if_pos client]
  exact if_pos rfl

/-- The loss of a registered connection takes all activations of its client. -/
theorem connectionLost_inactive (owned : Owned routing) (client : routing.clients cid = some index)
    (found : routing.connections[index]? = some connection) (alive : connection.connected = true)
    (loggedIn : connection.loggedIn = true) (plugin : Bytes) :
    (routing.connectionLost index).activations plugin cid = false := by
  obtain ⟨same, sameFound, name⟩ := owned.named cid index client
  rw [found] at sameFound
  cases sameFound
  have lost : routing.connectionLost index = (routing.setConnection index
      { connection with connected := false }).unregisterClient index cid := by
    rw [Plugins.connectionLost, found]
    simp only [alive, loggedIn, if_true, name]
  have next : Owned (routing.connectionLost index) := connectionLost_owned owned index
  apply next.inactive
  rw [lost]
  exact unregisterClient_unknown client

theorem deactivateAll_connections (index : Nat) (cid : Bytes) (names : List Bytes) :
    (routing.deactivateAll index cid names).connections = routing.connections := by
  induction names generalizing routing with
  | nil => rfl
  | cons plugin names ih =>
    rw [Plugins.deactivateAll, ih]
    split
    · exact deactivateClient_connections plugin index cid
    · rfl

/-- A lost connection keeps its name, and so do the others. -/
theorem connectionLost_named {other : Nat} (found : routing.connections[other]? = some connection) :
    ∃ next, (routing.connectionLost index).connections[other]? = some next ∧
      next.cid = connection.cid := by
  have updated : ∀ old, routing.connections[index]? = some old → ∃ next,
      (routing.connections.set index { old with connected := false })[other]? = some next ∧
        next.cid = connection.cid := by
    intro old oldFound
    by_cases here : index = other
    · subst here
      rw [found] at oldFound
      cases oldFound
      exact ⟨_, List.getElem?_set_self (List.getElem?_eq_some_iff.mp found).1, rfl⟩
    · exact ⟨connection, (List.getElem?_set_ne here).trans found, rfl⟩
  rw [Plugins.connectionLost]
  split
  · exact ⟨connection, found, rfl⟩
  · next old oldFound =>
      split
      · simp only
        split
        · rw [Plugins.unregisterClient]
          split
          · change ∃ next, ((routing.setConnection index _).deactivateAll index
              old.cid _).connections[other]? = some next ∧ next.cid = connection.cid
            rw [deactivateAll_connections]
            exact updated old oldFound
          · exact updated old oldFound
        · exact updated old oldFound
      · exact ⟨connection, found, rfl⟩

end Owners

/-- The old connection of the client is replaced without its loss, or its loss does nothing. -/
def Connection.keptActive (connection old : Connection) (now : Nat) : Bool :=
  old.stray now || connection.sameSession old && !(old.connected && old.loggedIn)

/-- A connection that is replaced without a clean loss has no active plugins, and only the
registered connection activates a plugin. -/
def Orderly (routing : Plugins) : RoutingEvent → Prop
  | .registerClient index => ∀ connection old oldConnection,
      routing.connections[index]? = some connection →
      routing.clients connection.cid = some old →
      routing.connections[old]? = some oldConnection →
      connection.keptActive oldConnection routing.now = true →
      ∀ plugin, routing.activations plugin connection.cid = false
  | .activateClient plugin index => ∀ connection,
      routing.connections[index]? = some connection →
      routing.clients connection.cid = some index ∨
        routing.activations plugin connection.cid = true
  | _ => True

section Runs

variable {routing : Plugins}

theorem registerClient_owned (owned : Owned routing) {index : Nat} {connection : Connection}
    (found : routing.connections[index]? = some connection)
    (orderly : Orderly routing (.registerClient index)) :
    Owned (routing.registerClient index connection).1 := by
  have named : ∀ other, some index = some other → ∃ same,
      routing.connections[other]? = some same ∧ same.cid = connection.cid := by
    intro other same
    cases same
    exact ⟨connection, found, rfl⟩
  rw [Plugins.registerClient]
  cases client : routing.clients connection.cid with
  | none => exact setClient_owned owned (owned.inactive client) named
  | some old =>
    obtain ⟨oldConnection, oldFound, oldName⟩ := owned.named _ old client
    rw [bind_some, oldFound, map_some]
    have kept := orderly connection old oldConnection found client oldFound
    simp only
    split
    · next stray =>
        exact setClient_owned owned (kept (by rw [Connection.keptActive, stray]; rfl)) named
    · next notStray =>
        split
        · next same =>
            apply setClient_owned (connectionLost_owned owned old)
            · intro plugin
              by_cases clean : (oldConnection.connected && oldConnection.loggedIn) = true
              · rw [Bool.and_eq_true] at clean
                exact connectionLost_inactive owned client oldFound clean.1 clean.2 plugin
              · have unclean : (oldConnection.connected && oldConnection.loggedIn) = false :=
                  Bool.eq_false_of_not_eq_true clean
                have idle : routing.connectionLost old = routing ∨ routing.connectionLost old =
                    routing.setConnection old { oldConnection with connected := false } := by
                  rw [Plugins.connectionLost, oldFound]
                  rcases Bool.eq_false_or_eq_true oldConnection.connected with alive | lost
                  · rw [alive, Bool.true_and] at unclean
                    simp only [alive, unclean, if_true, Bool.false_eq_true, if_false]
                    exact .inr trivial
                  · simp only [lost, Bool.false_eq_true, if_false]
                    exact .inl trivial
                have active : connection.keptActive oldConnection routing.now = true := by
                  rw [Connection.keptActive, same, unclean]
                  exact Bool.or_true _
                have off := kept active plugin
                rcases idle with same | same <;> rw [same] <;> exact off
            · intro other same
              cases same
              exact connectionLost_named found
        · exact owned

theorem step_owned {event : RoutingEvent} {next : Plugins} (owned : Owned routing)
    (orderly : Orderly routing event) (stepped : routing.step event = some next) : Owned next := by
  cases event with
  | connectionMade cid sessionId =>
    cases stepped
    refine ⟨owned.own, fun other index client => ?_, owned.listed⟩
    obtain ⟨connection, found, name⟩ := owned.named other index client
    refine ⟨connection, ?_, name⟩
    exact (List.getElem?_append_left (List.getElem?_eq_some_iff.mp found).1).trans found
  | tick seconds =>
    cases stepped
    exact ⟨owned.own, owned.named, owned.listed⟩
  | pong index =>
    obtain ⟨connection, found, rfl⟩ := map_eq_some_iff.mp stepped
    exact setConnection_owned owned found rfl
  | registerClient index =>
    obtain ⟨connection, found, stepped⟩ := bind_eq_some_iff.mp stepped
    have registered := registerClient_owned owned found orderly
    split at stepped
    · cases stepped
    · split at stepped
      · next accepted result =>
          obtain ⟨same, sameFound, rfl⟩ := map_eq_some_iff.mp stepped
          rw [result] at registered
          exact setConnection_owned registered sameFound rfl
      · next refused result =>
          cases stepped
          rw [result] at registered
          exact registered
  | unregisterClient index =>
    obtain ⟨connection, found, rfl⟩ := map_eq_some_iff.mp stepped
    exact unregisterClient_owned owned found rfl
  | activateClient plugin index =>
    obtain ⟨connection, found, stepped⟩ := bind_eq_some_iff.mp stepped
    split at stepped
    · next allowed =>
        cases stepped
        exact activateClient_owned owned allowed.2 (orderly connection found)
    · cases stepped
  | deactivateClient plugin index =>
    obtain ⟨connection, found, stepped⟩ := bind_eq_some_iff.mp stepped
    split at stepped
    · cases stepped
      exact deactivateClient_owned owned found rfl
    · cases stepped
  | connectionLost index =>
    cases stepped
    exact connectionLost_owned owned index

end Runs

/-- Every step of the run is an orderly one. -/
def OrderlyRun : Plugins → List RoutingEvent → Prop
  | _, [] => True
  | routing, event :: events =>
    Orderly routing event ∧ ∀ next, routing.step event = some next → OrderlyRun next events

theorem run_routed {routing final : Plugins} {events : List RoutingEvent} (owned : Owned routing)
    (balanced : Balanced routing) (orderly : OrderlyRun routing events)
    (ran : routing.run events = some final) : Routed final := by
  induction events generalizing routing with
  | nil =>
    cases ran
    exact ⟨owned.own, fun plugin cid => (balanced plugin cid).1⟩
  | cons event events ih =>
    obtain ⟨next, stepped, ran⟩ := bind_eq_some_iff.mp ran
    exact ih (step_owned owned orderly.1 stepped)
      (step_balanced balanced stepped) (orderly.2 next stepped) ran

/-- In an orderly run the active plugins are those of the registered connections. -/
theorem routing_of_orderly {plugins : List Bytes} {now : Nat} {events : List RoutingEvent}
    {routing : Plugins} (orderly : OrderlyRun (Plugins.start plugins now) events)
    (ran : (Plugins.start plugins now).run events = some routing) : Routed routing := by
  have owned : Owned (Plugins.start plugins now) :=
    ⟨fun _ _ active => (by cases active), fun _ _ client => (by cases client),
      fun _ _ active => (by cases active)⟩
  have balanced : Balanced (Plugins.start plugins now) :=
    fun _ _ => ⟨fun _ _ found => (by cases found), rfl⟩
  exact run_routed owned balanced orderly ran

/-- A connection of the same session replaces the old one, which is lost later. -/
def takeoverEvents : List RoutingEvent :=
  [.connectionMade [65] (some 7), .registerClient 0, .activateClient [80] 0,
    .connectionMade [65] (some 7), .registerClient 1, .connectionLost 0, .activateClient [80] 1]

theorem orderlyRun_cons {routing next : Plugins} {event : RoutingEvent}
    {events : List RoutingEvent} (orderly : Orderly routing event)
    (stepped : routing.step event = some next) (rest : OrderlyRun next events) :
    OrderlyRun routing (event :: events) := by
  refine ⟨orderly, fun other same => ?_⟩
  rw [stepped] at same
  cases same
  exact rest

theorem orderly_takeover : OrderlyRun (Plugins.start [[80]] 0) takeoverEvents := by
  refine orderlyRun_cons (by trivial) rfl ?_
  refine orderlyRun_cons ?_ rfl ?_
  · intro connection old oldConnection found client
    cases found
    cases client
  refine orderlyRun_cons ?_ rfl ?_
  · intro connection found
    cases found
    exact .inl rfl
  refine orderlyRun_cons (by trivial) rfl ?_
  refine orderlyRun_cons ?_ rfl ?_
  · intro connection old oldConnection found client oldFound kept
    cases found
    cases client
    cases oldFound
    exact absurd kept (by decide)
  refine orderlyRun_cons (by trivial) rfl ?_
  refine orderlyRun_cons ?_ rfl (by trivial)
  intro connection found
  cases found
  exact .inl rfl

theorem routing_of_takeover :
    ∃ routing, (Plugins.start [[80]] 0).run takeoverEvents = some routing ∧
      routing.activations [80] [65] = true ∧ Routed routing := by
  refine ⟨((Plugins.start [[80]] 0).run takeoverEvents).getD (Plugins.start [] 0), rfl, rfl, ?_⟩
  exact routing_of_orderly orderly_takeover rfl

/-- A connection without a pong for a long time is replaced and keeps its plugins. -/
def strayEvents : List RoutingEvent :=
  [.connectionMade [65] none, .registerClient 0, .activateClient [80] 0, .tick 901,
    .connectionMade [65] none, .registerClient 1]

def strayed : Plugins := ((Plugins.start [[80]] 0).run strayEvents).getD (Plugins.start [] 0)

theorem strayed_not_routed :
    ((Plugins.start [[80]] 0).run strayEvents).isSome = true ∧ ¬ Routed strayed := by
  refine ⟨rfl, fun routed => ?_⟩
  obtain ⟨index, client, last⟩ := routed.own [80] [65] rfl
  have second : strayed.clients [65] = some 1 := rfl
  have none : requests strayed.calls [80] 1 = [] := rfl
  rw [second] at client
  cases client
  rw [none] at last
  cases last

end Ucollect.Master
