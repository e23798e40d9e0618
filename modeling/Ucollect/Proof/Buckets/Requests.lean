import Ucollect.Construction.Buckets.Requests
import Ucollect.Library.Memo
import Ucollect.Library.Tokens

/-
This file follows the callbacks of the requests through a run of the server.
-/

namespace Ucollect.Requests
open Library List Option Function

section Entries

variable (world : World)

def Entry.callbacks : Entry → List Nat
  | .waiting callbacks => callbacks
  | .received _ _ => []

/-- These callbacks wait for one entry. -/
def World.waiting (place : Nat × List Nat) : List Nat :=
  ((world.ccaches place.1 place.2).map Entry.callbacks).getD []

theorem setEntry_ccaches (ccache other : Nat) (keys others : List Nat) (entry : Entry) :
    (world.setEntry ccache keys entry).ccaches other others =
      if other = ccache ∧ others = keys then some entry else world.ccaches other others := by
  rw [World.setEntry]
  dsimp only
  by_cases here : other = ccache
  · subst here
    rw [update_self, update_apply]
    by_cases same : others = keys
    · rw [if_pos same, if_pos ⟨rfl, same⟩]
    · rw [if_neg same, if_neg fun both => same both.2]
  · rw [update_of_ne here, if_neg fun both => here both.1]

theorem waiting_setEntry (ccache : Nat) (keys : List Nat) (entry : Entry) :
    (world.setEntry ccache keys entry).waiting =
      update world.waiting (ccache, keys) entry.callbacks := by
  funext ⟨other, others⟩
  rw [World.waiting, setEntry_ccaches]
  by_cases here : other = ccache ∧ others = keys
  · rw [if_pos here, here.1, here.2, update_self]
    rfl
  · rw [if_neg here, update_of_ne fun same => here (Prod.mk.inj same)]
    rfl

theorem waiting_congr {next : World} (same : next.ccaches = world.ccaches) :
    next.waiting = world.waiting := by
  funext place
  rw [World.waiting, World.waiting, same]

end Entries

section Caches

variable {cache : List (Nat × List (Nat × Nat))} {property : Nat → Prop}

/-- The cache leads only to dictionaries with the property. -/
def Leads (cache : List (Nat × List (Nat × Nat))) (property : Nat → Prop) : Prop :=
  ∀ entry ∈ cache, ∀ pair ∈ entry.2, property pair.2

theorem leads_find {generation criterion ccache : Nat} (leads : Leads cache property)
    (found : findCcache cache generation criterion = some ccache) : property ccache := by
  obtain ⟨criteria, known, inside⟩ := bind_eq_some_iff.mp found
  exact leads _ (mem_of_lookup known) _ (mem_of_lookup inside)

theorem Leads.weaken {weaker : Nat → Prop} (leads : Leads cache property)
    (weaken : ∀ ccache, property ccache → weaker ccache) : Leads cache weaker :=
  fun entry member pair inside => weaken _ (leads entry member pair inside)

theorem dropOldest_subset (fuel : Nat) (cache : List (Nat × List (Nat × Nat))) :
    dropOldest fuel cache ⊆ cache := by
  induction fuel generalizing cache with
  | zero => exact List.Subset.refl _
  | succ fuel ih =>
    rw [dropOldest]
    split
    · exact List.Subset.trans (ih _) filter_sublist.subset
    · exact List.Subset.refl _

theorem leads_addGeneration (leads : Leads cache property) (generation : Nat) :
    Leads (addGeneration cache generation) property := by
  rw [addGeneration]
  split
  · exact leads
  · intro entry member pair inside
    rcases mem_append.mp member with kept | added
    · exact leads entry (dropOldest_subset _ _ kept) pair inside
    · cases mem_singleton.mp added
      cases inside

theorem leads_addCcache {generation criterion ccache : Nat} (leads : Leads cache property)
    (holds : property ccache) : Leads (addCcache cache generation criterion ccache) property := by
  intro entry member pair inside
  obtain ⟨old, known, same⟩ := List.mem_map.mp member
  split at same
  · cases same
    rcases mem_append.mp inside with kept | added
    · exact leads old known pair kept
    · cases mem_singleton.mp added
      exact holds
  · cases same
    exact leads _ known pair inside

/-- A generation that is added has no dictionaries. -/
theorem findCcache_addGeneration (cache : List (Nat × List (Nat × Nat)))
    (generation criterion : Nat) :
    findCcache (addGeneration cache generation) generation criterion =
      findCcache cache generation criterion := by
  rw [addGeneration]
  split
  · rfl
  · next unknown =>
      have absent : cache.lookup generation = none := not_isSome_iff_eq_none.mp unknown
      have dropped : (dropOldest cache.length cache).lookup generation = none := by
        rw [lookup_eq_none_iff] at absent ⊢
        exact fun entry member => absent entry (dropOldest_subset _ _ member)
      rw [findCcache, findCcache, lookup_append, dropped, absent, none_or, lookup_cons_self]
      rfl

end Caches

section Moves

/-- The callbacks that the outputs invoke. -/
def Output.invoked : Output → Option Nat
  | .invoke callback _ _ => some callback
  | .send _ _ => none

def invoked (outputs : List Output) : List Nat := outputs.filterMap Output.invoked

/-- The dictionaries of the world keep to their client objects. -/
structure World.Formed (world : World) (owners : Nat → Bytes) : Prop where
  ccaches : ∀ ccache keys, world.ccacheCount ≤ ccache → world.ccaches ccache keys = none
  objects : ∀ object, world.objectCount ≤ object → world.objects object = none
  caches : ∀ object client, world.objects object = some client →
    Leads client.cache fun ccache => ccache < world.ccacheCount ∧ owners ccache = client.name
  requests : ∀ rid timeout closure, world.manager.requests rid = some (timeout, closure) →
    closure.ccache < world.ccacheCount ∧
      ∃ client, world.objects closure.object = some client ∧ client.name = owners closure.ccache
  waiting : ∀ place, ∀ callback ∈ world.waiting place,
    world.callbacks[callback]? = some (owners place.1)

/-- This is all that one event does to the callbacks and to the data that waits for them. -/
inductive World.Moves (world : World) : Event → World → List Output → Prop where
  | quiet {event next outputs} (ccaches : next.ccaches = world.ccaches)
      (callbacks : next.callbacks = world.callbacks) (none : invoked outputs = []) :
      Moves world event next outputs
  | refused {event next} (object client) (known : world.objects object = some client)
      (ccaches : next.ccaches = world.ccaches)
      (callbacks : next.callbacks = world.callbacks ++ [client.name]) :
      Moves world event next [.invoke world.callbacks.length none false]
  | recalled {event next} (object client ccache keys data success)
      (known : world.objects object = some client)
      (found : ∃ generation criterion, findCcache client.cache generation criterion = some ccache)
      (kept : world.ccaches ccache keys = some (.received data success))
      (ccaches : next.ccaches = world.ccaches)
      (callbacks : next.callbacks = world.callbacks ++ [client.name]) :
      Moves world event next [.invoke world.callbacks.length data success]
  | joined {event next outputs} (place : Nat × List Nat) (name : Bytes)
      (ccaches : next.ccaches = (world.setEntry place.1 place.2
        (.waiting (world.waiting place ++ [world.callbacks.length]))).ccaches)
      (unheld : ∀ data success, world.ccaches place.1 place.2 ≠ some (.received data success))
      (callbacks : next.callbacks = world.callbacks ++ [name]) (none : invoked outputs = []) :
      Moves world event next outputs
  | answered {name message raises next} (rid timeout closure client data success)
      (request : world.manager.requests rid = some (timeout, closure))
      (known : world.objects closure.object = some client) (active : client.active = true)
      (carried : success = true → ∃ answer, data = some answer ∧
        message.head? = some (letter 'K') ∧ answerId message = some (rid, answer))
      (taken : List Nat) (part : taken.Sublist (world.waiting (closure.ccache, closure.keys)))
      (ccaches : next.ccaches =
        (world.setEntry closure.ccache closure.keys (.received data success)).ccaches)
      (callbacks : next.callbacks = world.callbacks) :
      Moves world (.message name message raises) next
        (taken.map fun callback => .invoke callback data success)

/-- The owners of the dictionaries that are there stay. -/
def Extends (world : World) (owners later : Nat → Bytes) : Prop :=
  ∀ ccache < world.ccacheCount, later ccache = owners ccache

end Moves

section Asking

variable {world : World} {owners : Nat → Bytes} {object : Nat} {client : Client}
  {criterion generation : Nat} {keys : List Nat}

/-- The entry of a new request is empty. -/
theorem World.Formed.vacant (formed : world.Formed owners)
    (empty : ∀ ccache, findCcache client.cache generation criterion = some ccache →
      world.ccaches ccache keys = none) :
    world.ccaches ((findCcache client.cache generation criterion).getD world.ccacheCount) keys =
      none := by
  cases found : findCcache client.cache generation criterion with
  | none => exact formed.ccaches _ _ le_rfl
  | some ccache => exact empty ccache found

theorem request_moves {event : Event} {now : Nat} (formed : world.Formed owners)
    (empty : ∀ ccache, findCcache client.cache generation criterion = some ccache →
      world.ccaches ccache keys = none) :
    world.Moves event
      (World.request { world with callbacks := world.callbacks ++ [client.name] } object client
        criterion generation keys world.callbacks.length now).1
      (World.request { world with callbacks := world.callbacks ++ [client.name] } object client
        criterion generation keys world.callbacks.length now).2 := by
  have vacant := formed.vacant empty
  refine .joined ((findCcache client.cache generation criterion).getD world.ccacheCount, keys)
    client.name ?_ ?_ rfl rfl
  · have nobody : world.waiting
        ((findCcache client.cache generation criterion).getD world.ccacheCount, keys) = [] := by
      rw [World.waiting, vacant]
      rfl
    rw [nobody, World.request, findCcache_addGeneration]
    rfl
  · intro data success held
    cases vacant.symm.trans held

/-- The client has a new cache, and a request for one entry of it. -/
theorem World.Formed.asked {later : Nat → Bytes} {ccache count callback timeout : Nat}
    {cache : List (Nat × List (Nat × Nat))} (formed : world.Formed owners)
    (known : world.objects object = some client)
    (made : world.callbacks[callback]? = some client.name) (grows : world.ccacheCount ≤ count)
    (agrees : Extends world owners later) (owned : later ccache = client.name)
    (inside : ccache < count)
    (leads : Leads cache fun ccache => ccache < count ∧ later ccache = client.name) :
    World.Formed (World.setEntry { world with
        manager := (world.manager.register ⟨object, ccache, keys⟩ timeout).1
        objects := update world.objects object (some { client with cache })
        ccacheCount := count } ccache keys (.waiting [callback])) later := by
  have named : ∀ other holder, world.objects other = some holder →
      ∃ next, update world.objects object (some { client with cache }) other =
        some next ∧ next.name = holder.name := by
    intro other holder held
    rw [update_apply]
    split
    · next here =>
        subst here
        cases held.symm.trans known
        exact ⟨_, rfl, rfl⟩
    · exact ⟨holder, held, rfl⟩
  constructor
  case ccaches =>
    intro other others new
    rw [setEntry_ccaches, if_neg fun both => (inside.trans_le new).ne' both.1]
    exact formed.ccaches other others (grows.trans new)
  case objects =>
    intro other new
    rw [World.setEntry]
    dsimp only
    rw [update_of_ne, formed.objects other new]
    rintro rfl
    cases known.symm.trans (formed.objects _ new)
  case caches =>
    intro other holder updated
    rw [World.setEntry] at updated
    dsimp only at updated
    rw [update_apply] at updated
    split at updated
    · cases updated
      exact leads
    · exact (formed.caches other holder updated).weaken fun ccache holds =>
        ⟨holds.1.trans_le grows, (agrees ccache holds.1).trans holds.2⟩
  case requests =>
    intro rid timeout closure registered
    rw [World.setEntry, Manager.register] at registered
    dsimp only at registered
    rw [update_apply] at registered
    split at registered
    · cases registered
      obtain ⟨next, held, name⟩ := named object client known
      exact ⟨inside, next, held, name.trans owned.symm⟩
    · obtain ⟨old, holder, held, name⟩ := formed.requests rid timeout closure registered
      obtain ⟨next, nextHeld, nextName⟩ := named closure.object holder held
      exact ⟨old.trans_le grows, next, nextHeld, nextName.trans (name.trans (agrees _ old).symm)⟩
  case waiting =>
    intro place waiter waits
    rw [waiting_setEntry, mem_update] at waits
    split at waits
    · next here =>
        cases mem_singleton.mp waits
        rw [here]
        exact made.trans (congrArg some owned.symm)
    · have waits : waiter ∈ world.waiting place := waits
      have old : place.1 < world.ccacheCount := by
        by_contra new
        rw [World.waiting, formed.ccaches place.1 place.2 (not_lt.mp new)] at waits
        cases waits
      exact (formed.waiting place waiter waits).trans (congrArg some (agrees _ old).symm)

/-- A new dictionary belongs to the client object. -/
theorem request_formed {callback now : Nat} (formed : world.Formed owners)
    (known : world.objects object = some client)
    (made : world.callbacks[callback]? = some client.name) :
    ∃ later, Extends world owners later ∧ World.Formed (World.request world object client
        criterion generation keys callback now).1 later := by
  rw [World.request, findCcache_addGeneration]
  cases found : findCcache client.cache generation criterion with
  | some ccache =>
    obtain ⟨old, owned⟩ := leads_find (formed.caches object client known) found
    exact ⟨owners, fun _ _ => rfl, formed.asked known made le_rfl (fun _ _ => rfl) owned old
      (leads_addGeneration (formed.caches object client known) generation)⟩
  | none =>
    have agrees : Extends world owners (update owners world.ccacheCount client.name) :=
      fun ccache old => update_of_ne old.ne _ _
    have owned := update_self world.ccacheCount client.name owners
    refine ⟨_, agrees, formed.asked known made (Nat.le_succ _) agrees owned (Nat.lt_succ_self _) ?_⟩
    refine leads_addCcache (leads_addGeneration ((formed.caches object client known).weaken
      fun ccache holds => ?_) generation) ⟨Nat.lt_succ_self _, owned⟩
    exact ⟨holds.1.trans (Nat.lt_succ_self _), (agrees ccache holds.1).trans holds.2⟩

end Asking

section Keeping

variable {world : World} {owners : Nat → Bytes}

section

variable (formed : world.Formed owners)
include formed

theorem World.Formed.made (name : Bytes) :
    World.Formed { world with callbacks := world.callbacks ++ [name] } owners :=
  ⟨formed.ccaches, formed.objects, formed.caches, formed.requests, fun place callback waits => by
    have known := formed.waiting place callback waits
    exact (List.getElem?_append_left (List.getElem?_eq_some_iff.mp known).1).trans known⟩

theorem World.Formed.entry {ccache : Nat} {keys : List Nat} {entry : Entry}
    (old : ccache < world.ccacheCount)
    (owned : ∀ callback ∈ entry.callbacks, world.callbacks[callback]? = some (owners ccache)) :
    (world.setEntry ccache keys entry).Formed owners := by
  refine ⟨?_, formed.objects, formed.caches, formed.requests, ?_⟩
  · intro other others new
    rw [setEntry_ccaches, if_neg fun both => (old.trans_le new).ne' both.1]
    exact formed.ccaches other others new
  · intro place callback waits
    rw [waiting_setEntry, mem_update] at waits
    split at waits
    · next here =>
        rw [here]
        exact owned callback waits
    · exact formed.waiting place callback waits

theorem World.Formed.manage {manager : Manager}
    (fewer : ∀ rid request, manager.requests rid = some request →
      world.manager.requests rid = some request) : World.Formed { world with manager } owners :=
  ⟨formed.ccaches, formed.objects, formed.caches,
    fun rid timeout closure known => formed.requests rid timeout closure (fewer rid _ known),
    formed.waiting⟩

theorem setActive_formed (object : Nat) (active : Bool) :
    (world.setActive object active).Formed owners := by
  have renamed : ∀ other, (world.setActive object active).objects other = world.objects other ∨
      (world.setActive object active).objects other =
        (world.objects other).map fun client => { client with active } := by
    intro other
    rw [World.setActive]
    dsimp only
    rw [update_apply]
    split
    · next here => exact .inr (by rw [here])
    · exact .inl rfl
  refine ⟨formed.ccaches, ?_, ?_, ?_, formed.waiting⟩
  · intro other new
    have absent := formed.objects other new
    rcases renamed other with same | same
    · exact same.trans absent
    · rw [same, absent]
      rfl
  · intro other holder held
    rcases renamed other with same | same
    · exact formed.caches other holder (same.symm.trans held)
    · obtain ⟨client, known, rfl⟩ := map_eq_some_iff.mp (same.symm.trans held)
      exact formed.caches other client known
  · intro rid timeout closure request
    obtain ⟨old, client, known, name⟩ := formed.requests rid timeout closure request
    refine ⟨old, ?_⟩
    rcases renamed closure.object with same | same
    · exact ⟨client, same.trans known, name⟩
    · exact ⟨{ client with active }, same.trans (by rw [known]; rfl), name⟩

theorem connected_formed (name : Bytes) : (world.connected name).Formed owners := by
  have others : ∀ other client, world.objects other = some client →
      (world.connected name).objects other = some client := by
    intro other client known
    refine (update_of_ne ?_ _ _).trans known
    rintro rfl
    cases known.symm.trans (formed.objects _ le_rfl)
  refine ⟨formed.ccaches, ?_, ?_, ?_, formed.waiting⟩
  · intro other new
    have later : world.objectCount < other := new
    exact (update_of_ne later.ne' _ _).trans (formed.objects other later.le)
  · intro other holder held
    rw [World.connected] at held
    dsimp only at held
    rw [update_apply] at held
    split at held
    · cases held
      exact fun entry member => absurd member not_mem_nil
    · exact formed.caches other holder held
  · intro rid timeout closure request
    obtain ⟨old, client, known, owner⟩ := formed.requests rid timeout closure request
    exact ⟨old, client, others _ _ known, owner⟩

theorem disconnected_formed (name : Bytes) : (world.disconnected name).Formed owners := by
  rw [World.disconnected]
  cases world.clients name with
  | none => exact formed
  | some object =>
    have silent := setActive_formed formed object false
    exact ⟨silent.ccaches, silent.objects, silent.caches, silent.requests, silent.waiting⟩

/-- The client is told at once, it waits with others, or it is asked. -/
theorem getKeys_spec (event : Event) (object criterion generation : Nat) (keys : List Nat)
    (now : Nat) :
    world.Moves event (world.getKeys object criterion generation keys now).1
        (world.getKeys object criterion generation keys now).2 ∧
      ∃ later, Extends world owners later ∧
        (world.getKeys object criterion generation keys now).1.Formed later := by
  have stays : Extends world owners owners := fun _ _ => rfl
  rw [World.getKeys]
  cases known : world.objects object with
  | none => exact ⟨.quiet rfl rfl rfl, owners, stays, formed⟩
  | some client =>
    have made := formed.made client.name
    have last : (world.callbacks ++ [client.name])[world.callbacks.length]? = some client.name :=
      List.getElem?_concat_length
    dsimp only
    split
    · exact ⟨.refused object client known rfl rfl, owners, stays, made⟩
    · cases found : findCcache client.cache generation criterion with
      | none =>
        refine ⟨request_moves formed fun ccache other => ?_, request_formed made known last⟩
        cases found.symm.trans other
      | some ccache =>
        obtain ⟨old, owned⟩ := leads_find (formed.caches object client known) found
        dsimp only
        cases held : world.ccaches ccache keys with
        | none =>
          refine ⟨request_moves formed fun other same => ?_, request_formed made known last⟩
          cases found.symm.trans same
          exact held
        | some entry =>
          cases entry with
          | received data success =>
            exact ⟨.recalled object client ccache keys data success known
              ⟨generation, criterion, found⟩ held rfl rfl, owners, stays, made⟩
          | waiting callbacks =>
            have here : world.waiting (ccache, keys) = callbacks := by
              rw [World.waiting, held]
              rfl
            refine ⟨.joined (ccache, keys) client.name ?_ ?_ rfl rfl, owners, stays,
              made.entry old ?_⟩
            · rw [here]
              rfl
            · intro data success other
              cases held.symm.trans other
            · intro callback member
              rcases mem_append.mp member with waits | new
              · exact made.waiting (ccache, keys) callback (here ▸ waits)
              · cases mem_singleton.mp new
                exact last.trans (congrArg some owned.symm)

end

theorem reached_sublist (raises callbacks : List Nat) :
    (reached raises callbacks).Sublist callbacks := by
  induction callbacks with
  | nil => exact List.Sublist.refl _
  | cons callback callbacks ih =>
    rw [reached]
    split
    · exact Sublist.cons_cons _ (nil_sublist _)
    · exact Sublist.cons_cons _ ih

/-- The callbacks of an answered request are invoked, and its entry has the data. -/
theorem mycallback_spec (formed : world.Formed owners) {name message : Bytes} {raises : List Nat}
    {rid timeout : Nat} {closure : Closure} {data : Option Bytes} {success : Bool}
    (request : world.manager.requests rid = some (timeout, closure))
    (carried : success = true → ∃ answer, data = some answer ∧
      message.head? = some (letter 'K') ∧ answerId message = some (rid, answer)) :
    world.Moves (.message name message raises) (world.mycallback closure data success raises).1
        (world.mycallback closure data success raises).2.1 ∧
      (world.mycallback closure data success raises).1.Formed owners ∧
      (world.mycallback closure data success raises).1.manager = world.manager := by
  obtain ⟨old, -⟩ := formed.requests rid timeout closure request
  have received : (world.setEntry closure.ccache closure.keys (.received data success)).Formed
      owners := formed.entry old fun callback member => absurd member not_mem_nil
  rw [World.mycallback]
  cases known : world.objects closure.object with
  | none => exact ⟨.quiet rfl rfl rfl, formed, rfl⟩
  | some client =>
    dsimp only
    cases active : client.active with
    | false => exact ⟨.quiet rfl rfl rfl, formed, rfl⟩
    | true =>
      rw [if_neg (by decide)]
      cases held : world.ccaches closure.ccache closure.keys with
      | none => exact ⟨.quiet rfl rfl rfl, formed, rfl⟩
      | some entry =>
        cases entry with
        | waiting callbacks =>
          have here : world.waiting (closure.ccache, closure.keys) = callbacks := by
            rw [World.waiting, held]
            rfl
          exact ⟨.answered rid timeout closure client data success request known active
            carried (reached raises callbacks) (here ▸ reached_sublist raises callbacks)
            rfl rfl, received, rfl⟩
        | received _ _ =>
          exact ⟨.answered rid timeout closure client data success request known active
            carried [] (nil_sublist _) rfl rfl, received, rfl⟩

/-- A change of the manager does not touch the callbacks. -/
theorem World.Moves.manage {event : Event} {next : World} {outputs : List Output}
    (moves : world.Moves event next outputs) (manager : Manager) :
    world.Moves event { next with manager } outputs := by
  cases moves with
  | quiet ccaches callbacks none => exact .quiet ccaches callbacks none
  | refused object client known ccaches callbacks =>
    exact .refused object client known ccaches callbacks
  | recalled object client ccache keys data success known found kept ccaches callbacks =>
    exact .recalled object client ccache keys data success known found kept ccaches callbacks
  | joined place name ccaches unheld callbacks none =>
    exact .joined place name ccaches unheld callbacks none
  | answered rid timeout closure client data success request known active carried taken part ccaches
      callbacks =>
      exact .answered rid timeout closure client data success request known active carried taken
        part ccaches callbacks

theorem route_spec (formed : world.Formed owners) {name message : Bytes} {raises : List Nat}
    {rid : Nat} {data : Option Bytes} {success : Bool}
    (carried : success = true → ∃ answer, data = some answer ∧
      message.head? = some (letter 'K') ∧ answerId message = some (rid, answer)) :
    world.Moves (.message name message raises) (world.route rid data success raises).1
        (world.route rid data success raises).2 ∧
      (world.route rid data success raises).1.Formed owners := by
  rw [World.route]
  cases request : world.manager.requests rid with
  | none => exact ⟨.quiet rfl rfl rfl, formed⟩
  | some pair =>
    obtain ⟨timeout, closure⟩ := pair
    obtain ⟨moves, kept, -⟩ := @mycallback_spec world owners formed name message raises rid
      timeout closure data success request carried
    dsimp only
    split
    · exact ⟨moves, kept⟩
    · refine ⟨moves.manage _, kept.manage fun other found known => ?_⟩
      dsimp only at known
      rw [update_apply] at known
      split at known
      · cases known
      · exact known

/-- One event keeps the dictionaries with their owners. -/
theorem step_spec (formed : world.Formed owners) (event : Event) :
    world.Moves event (world.step event).1 (world.step event).2 ∧
      ∃ later, Extends world owners later ∧ (world.step event).1.Formed later := by
  have stays : Extends world owners owners := fun _ _ => rfl
  cases event with
  | connected name => exact ⟨.quiet rfl rfl rfl, owners, stays, connected_formed formed name⟩
  | disconnected name =>
    refine ⟨?_, owners, stays, disconnected_formed formed name⟩
    show world.Moves _ (world.disconnected name) []
    rw [World.disconnected]
    cases world.clients name <;> exact .quiet rfl rfl rfl
  | ask name criterion generation keys now =>
    rw [World.step]
    cases world.clients name with
    | none => exact ⟨.quiet rfl rfl rfl, owners, stays, formed⟩
    | some object => exact getKeys_spec formed _ object criterion generation keys now
  | message name message raises =>
    suffices both : world.Moves (.message name message raises)
        (world.messageFromClient name message raises).1
        (world.messageFromClient name message raises).2 ∧
        (world.messageFromClient name message raises).1.Formed owners from
      ⟨both.1, owners, stays, both.2⟩
    rw [World.messageFromClient]
    split
    · cases world.clients name with
      | none => exact ⟨.quiet rfl rfl rfl, formed⟩
      | some object => exact ⟨.quiet rfl rfl rfl, setActive_formed formed object true⟩
    · split
      · next keys =>
          cases answer : answerId message with
          | none => exact ⟨.quiet rfl rfl rfl, formed⟩
          | some pair => exact route_spec formed fun _ => ⟨pair.2, rfl, keys, answer⟩
      · split
        · cases answerId message with
          | none => exact ⟨.quiet rfl rfl rfl, formed⟩
          | some pair => exact route_spec formed nofun
        · exact ⟨.quiet rfl rfl rfl, formed⟩
  | trim now =>
    refine ⟨.quiet rfl rfl rfl, owners, stays, formed.manage fun rid request known => ?_⟩
    exact (filter_eq_some_iff.mp known).1

end Keeping

end Ucollect.Requests
