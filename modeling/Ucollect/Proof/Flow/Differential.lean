import Ucollect.Proof.Diffstore.Tries
import Ucollect.Proof.Flow.Meaning

/-
This file proves which differential filters follow the diffs for their name.
-/

namespace Ucollect.Flow
open Library Core Diffstore List Option Function

/-- This is a node `d` or `D` of the tree. -/
structure Differential where
  side : Side
  name : Bytes
  store : Nat
  deriving DecidableEq, Repr

mutual

/-- These are the differential filters in preorder. -/
def Filter.differentials : Filter → List Differential
  | .differential side name store => [⟨side, name, store⟩]
  | .negation sub => sub.differentials
  | .conjunction subfilters => subDifferentials subfilters
  | .disjunction subfilters => subDifferentials subfilters
  | _ => []

def subDifferentials : List Filter → List Differential
  | [] => []
  | sub :: subfilters => sub.differentials ++ subDifferentials subfilters

end

def Filter.named (filter : Filter) (name : Bytes) : List Differential :=
  filter.differentials.filter (·.name = name)

/-- The address set of a name has a version and an epoch. -/
structure AddressSet where
  epoch : Nat
  version : Nat
  addresses : Finset Bytes
  deriving DecidableEq

/-- A full diff is always accepted, and the others continue the set. -/
def AddressSet.Accepts (set : AddressSet) (diff : Diff) : Prop :=
  diff.full = true ∨ diff.epoch = set.epoch ∧ diff.fromVersion = set.version

instance (set : AddressSet) (diff : Diff) : Decidable (set.Accepts diff) :=
  inferInstanceAs (Decidable (_ ∨ _))

/-- An accepted diff describes the next set. -/
def AddressSet.receive (set : AddressSet) (diff : Diff) : AddressSet :=
  if set.Accepts diff then
    match diffChanges diff.body.length diff.body with
    | none => set
    | some changes =>
      ⟨diff.epoch, diff.toVersion,
        applyChanges (if diff.full then ∅ else set.addresses) changes⟩
  else set

/-- A trie has kept keys of its deleted addresses since it was emptied. -/
structure Layout where
  set : AddressSet
  keys : List Bytes

def Layout.start : Layout := ⟨⟨0, 0, ∅⟩, []⟩

/-- No address of an accepted diff ends inside an edge of the trie. -/
def Layout.Uncut (layout : Layout) (diff : Diff) : Prop :=
  layout.set.Accepts diff →
    Core.Uncut (diff.kept layout.set.addresses layout.keys) (diff.changes.map Change.key)

def Layout.receive (layout : Layout) (diff : Diff) : Layout where
  set := layout.set.receive diff
  keys :=
    if layout.set.Accepts diff then
      diff.kept layout.set.addresses layout.keys ++ diff.changes.map Change.key
    else layout.keys

def UncutAll (layout : Layout) : List Diff → Prop
  | [] => True
  | diff :: diffs => layout.Uncut diff ∧ UncutAll (layout.receive diff) diffs

def FilterEvent.diffFor (name : Bytes) : FilterEvent → Option Diff
  | .update other diff => if other = name then some diff else none
  | .evaluate _ _ _ => none

def diffsFor (name : Bytes) (events : List FilterEvent) : List Diff :=
  events.filterMap (FilterEvent.diffFor name)

/-- This is the set that the diffs for the name describe. -/
def described (name : Bytes) (events : List FilterEvent) : Finset Bytes :=
  ((diffsFor name events).foldl AddressSet.receive Layout.start.set).addresses

/-- The address of the packet is in the set, alone or with the port. -/
def holdsPacket (set : Finset Bytes) (packet : Packet) (side : Side) : Bool :=
  FilterTree.atEndpoint packet side ⟨(packet.addresses.src, packet.ports.src),
    (packet.addresses.dst, packet.ports.dst)⟩ fun (address, port) =>
      address ∈ set || address ++ word16 port.toNat ∈ set

/-- The trie of the node finds the addresses of the set, and the packets are compared with the set. -/
structure Serves (order : ByteOrder) (side : Side) (store : TrieStore) (set : Finset Bytes) :
    Prop where
  addresses : ∀ key, ∃ trie,
    trieLookup store.trie key = .ok (trie, if key ∈ set then some () else none)
  packets : ∀ packet, ∃ next,
    lookupDifferential order packet side store = .ok (next, holdsPacket set packet side)

section Search

variable {filter : Filter} {name : Bytes}

mutual

/-- The search stops at the first filter of the name. -/
theorem find_eq (name : Bytes) :
    ∀ filter : Filter, filter.find name = (filter.named name).head?.map Differential.store
  | .constant _ => rfl
  | .negation sub => by
    rw [Filter.find, find_eq name sub]
    rfl
  | .conjunction subfilters => by
    rw [Filter.find, findSub_eq name subfilters]
    rfl
  | .disjunction subfilters => by
    rw [Filter.find, findSub_eq name subfilters]
    rfl
  | .address _ _ => rfl
  | .port _ _ => rfl
  | .differential _ own _ => by
    by_cases same : own = name
    · simp [Filter.find, Filter.named, Filter.differentials, same]
    · simp [Filter.find, Filter.named, Filter.differentials, same, Ne.symm same]
  | .range _ _ _ _ => rfl

theorem findSub_eq (name : Bytes) :
    ∀ subfilters : List Filter, findSub name subfilters =
      ((subDifferentials subfilters).filter (·.name = name)).head?.map Differential.store
  | [] => rfl
  | sub :: subfilters => by
    rw [findSub, find_eq name sub, findSub_eq name subfilters, subDifferentials, filter_append,
      List.head?_append]
    rw [Filter.named]
    cases (sub.differentials.filter (·.name = name)).head? <;> rfl

end

end Search

section Numbers

/-- The stores are numbered one after another, from the next one on. -/
structure Numbered (differentials : List Differential) (nextStore after : Nat) : Prop where
  stores : differentials.map Differential.store = List.range' nextStore differentials.length
  next : after = nextStore + differentials.length

variable {first second : List Differential} {nextStore middle after fuel count : Nat}
  {input rest : Bytes} {side : Side} {filter : Filter} {parsed : Parse Filter}

theorem Numbered.nil : Numbered [] nextStore nextStore := ⟨rfl, rfl⟩

theorem Numbered.append (one : Numbered first nextStore middle) (two : Numbered second middle after) :
    Numbered (first ++ second) nextStore after := by
  obtain ⟨stores, rfl⟩ := one
  obtain ⟨more, rfl⟩ := two
  refine ⟨?_, by simp [Nat.add_assoc]⟩
  rw [map_append, stores, more, length_append, List.range'_append_1]

/-- These filters have no store. -/
theorem parseAddressMatch_none (found : parseAddressMatch side input = some (filter, rest)) :
    filter.differentials = [] := by
  simp only [parseAddressMatch, bind_eq_some_iff, map_eq_some_iff] at found
  obtain ⟨_, _, _, _, same⟩ := found
  cases same
  rfl

theorem parsePortMatch_none (found : parsePortMatch side input = some (filter, rest)) :
    filter.differentials = [] := by
  simp only [parsePortMatch, bind_eq_some_iff, map_eq_some_iff] at found
  obtain ⟨_, _, _, _, same⟩ := found
  cases same
  rfl

theorem parseRange_none (found : parseRange side input = some (filter, rest)) :
    filter.differentials = [] := by
  simp only [parseRange, ite_none_left_eq_some, bind_eq_some_iff] at found
  obtain ⟨_, _, _, _, _, _, _, _, _, same⟩ := found
  cases same
  rfl

theorem leaf_numbered {leafs : Option (Filter × Bytes)}
    (none' : ∀ filter rest, leafs = some (filter, rest) → filter.differentials = [])
    (found : leaf leafs nextStore = some parsed) :
    Numbered parsed.value.differentials nextStore parsed.nextStore := by
  simp only [leaf, map_eq_some_iff, Prod.exists] at found
  obtain ⟨filter, rest, here, rfl⟩ := found
  rw [none' filter rest here]
  exact .nil

theorem parseDifferential_numbered
    (found : parseDifferential side input nextStore = some parsed) :
    Numbered parsed.value.differentials nextStore parsed.nextStore := by
  simp only [parseDifferential, map_eq_some_iff, Prod.exists] at found
  obtain ⟨name, rest, -, rfl⟩ := found
  exact ⟨rfl, rfl⟩

theorem parseSubs_numbered {parseSub : Bytes → Nat → Option (Parse Filter)}
    (each : ∀ input nextStore parsed, parseSub input nextStore = some parsed →
      Numbered parsed.value.differentials nextStore parsed.nextStore)
    {subs : Parse (List Filter)} (found : parseSubs parseSub count input nextStore = some subs) :
    Numbered (subDifferentials subs.value) nextStore subs.nextStore := by
  induction count generalizing input nextStore subs with
  | zero =>
    cases found
    exact .nil
  | succ count ih =>
    simp only [parseSubs, bind_eq_some_iff, map_eq_some_iff] at found
    obtain ⟨first, here, last, others, rfl⟩ := found
    exact (each _ _ _ here).append (ih others)

theorem parseManySubs_numbered {parseSub : Bytes → Nat → Option (Parse Filter)}
    {combine : List Filter → Filter}
    (each : ∀ input nextStore parsed, parseSub input nextStore = some parsed →
      Numbered parsed.value.differentials nextStore parsed.nextStore)
    (combined : ∀ subfilters, (combine subfilters).differentials = subDifferentials subfilters)
    (found : parseManySubs parseSub combine input nextStore = some parsed) :
    Numbered parsed.value.differentials nextStore parsed.nextStore := by
  simp only [parseManySubs, bind_eq_some_iff, map_eq_some_iff] at found
  obtain ⟨counted, -, subs, here, rfl⟩ := found
  rw [combined]
  exact parseSubs_numbered each here

/-- Every node of a parsed filter gets a store of its own. -/
theorem parseOne_numbered (found : parseOne fuel input nextStore = some parsed) :
    Numbered parsed.value.differentials nextStore parsed.nextStore := by
  induction fuel generalizing input nextStore parsed with
  | zero => cases found
  | succ fuel ih =>
    have each : ∀ input nextStore parsed, parseOne fuel input nextStore = some parsed →
        Numbered parsed.value.differentials nextStore parsed.nextStore :=
      fun _ _ _ => ih
    rw [parseOne, bind_eq_some_iff] at found
    obtain ⟨⟨code, rest⟩, -, found⟩ := found
    obtain ⟨-, found⟩ | ⟨-, found⟩ := ite_eq_iff.mp found
    · cases found
      exact .nil
    obtain ⟨-, found⟩ | ⟨-, found⟩ := ite_eq_iff.mp found
    · cases found
      exact .nil
    obtain ⟨-, found⟩ | ⟨-, found⟩ := ite_eq_iff.mp found
    · rw [map_eq_some_iff] at found
      obtain ⟨sub, here, rfl⟩ := found
      have inner := each _ _ sub here
      exact inner
    obtain ⟨-, found⟩ | ⟨-, found⟩ := ite_eq_iff.mp found
    · exact parseManySubs_numbered each (fun _ => rfl) found
    obtain ⟨-, found⟩ | ⟨-, found⟩ := ite_eq_iff.mp found
    · exact parseManySubs_numbered each (fun _ => rfl) found
    obtain ⟨-, found⟩ | ⟨-, found⟩ := ite_eq_iff.mp found
    · exact leaf_numbered (fun _ _ => parseAddressMatch_none) found
    obtain ⟨-, found⟩ | ⟨-, found⟩ := ite_eq_iff.mp found
    · exact leaf_numbered (fun _ _ => parseAddressMatch_none) found
    obtain ⟨-, found⟩ | ⟨-, found⟩ := ite_eq_iff.mp found
    · exact leaf_numbered (fun _ _ => parsePortMatch_none) found
    obtain ⟨-, found⟩ | ⟨-, found⟩ := ite_eq_iff.mp found
    · exact leaf_numbered (fun _ _ => parsePortMatch_none) found
    obtain ⟨-, found⟩ | ⟨-, found⟩ := ite_eq_iff.mp found
    · exact parseDifferential_numbered found
    obtain ⟨-, found⟩ | ⟨-, found⟩ := ite_eq_iff.mp found
    · exact parseDifferential_numbered found
    obtain ⟨-, found⟩ | ⟨-, found⟩ := ite_eq_iff.mp found
    · exact leaf_numbered (fun _ _ => parseRange_none) found
    obtain ⟨-, found⟩ | ⟨-, found⟩ := ite_eq_iff.mp found
    · exact leaf_numbered (fun _ _ => parseRange_none) found
    · cases found

theorem filterParse_distinct (found : filterParse input = some filter) :
    (filter.differentials.map Differential.store).Nodup := by
  cases input with
  | nil =>
    cases found
    exact nodup_nil
  | cons byte input =>
    simp only [filterParse, map_eq_some_iff] at found
    obtain ⟨parsed, here, rfl⟩ := found
    rw [(parseOne_numbered here).stores]
    exact nodup_range'

end Numbers

section Following

variable {filter : Filter} {stores after : AddressStores} {store next : TrieStore}
  {abstract : Store} {set : AddressSet} {layout : Layout} {name : Bytes} {diff : Diff}
  {order : ByteOrder} {packet : Packet} {side : Side} {differential : Differential}
  {event : FilterEvent}

/-- The store has the described addresses, and it expects the same diffs. -/
structure Matches (store : Store) (set : AddressSet) : Prop where
  epoch : store.epoch = set.epoch
  version : store.version = set.version
  addresses : store.trie = set.addresses
  balanced : store.Balanced

theorem Matches.accepts (same : Matches abstract set) :
    set.Accepts diff ↔ ¬diff.Refused abstract := by
  unfold AddressSet.Accepts Diff.Refused
  rw [same.epoch, same.version]
  cases diff.full <;> simp

theorem Matches.receive {next : Store} {hooks : List Hook} (same : Matches abstract set)
    (received : abstract.receive diff = some (next, hooks)) : Matches next (set.receive diff) := by
  unfold AddressSet.receive
  by_cases refused : diff.Refused abstract
  · rw [receive_refused refused] at received
    cases received
    rw [if_neg (same.accepts.not.mpr (not_not.mpr refused))]
    exact same
  · rw [receive_accepted refused, map_eq_some_iff] at received
    obtain ⟨changes, found, moved⟩ := received
    have kept := (@moved_kept abstract diff same.balanced changes).1
    rw [if_pos (same.accepts.mpr refused), found]
    rw [moved] at kept
    have trie : next.trie = applyChanges (if diff.full then ∅ else set.addresses) changes := by
      rw [← congrArg (fun result => result.1.trie) moved]
      cases full : diff.full with
      | true => simp [Store.moved, full, changeAll_trie, same.balanced.reset.1]
      | false => simp [Store.moved, full, changeAll_trie, same.addresses]
    refine ⟨?_, ?_, trie, kept⟩
    · rw [← congrArg (fun result => result.1.epoch) moved]
      rfl
    · rw [← congrArg (fun result => result.1.version) moved]
      rfl

/-- The trie of the store has the addresses of the layout and its keys. -/
def Tracks (store : TrieStore) (layout : Layout) : Prop :=
  ∃ abstract : Store, store.Refines abstract layout.keys ∧ Matches abstract layout.set

theorem Tracks.init : Tracks .init .start := ⟨.init, .init, ⟨rfl, rfl, rfl, rfl⟩⟩

section

variable (tracks : Tracks store layout)
include tracks

theorem Tracks.receive {answer : Action × List Hook} (uncut : layout.Uncut diff)
    (received : store.receive diff = some (next, answer)) :
    Tracks next (layout.receive diff) := by
  obtain ⟨abstract, refines, same⟩ := tracks
  have follows := refines.receive same.balanced fun accepted => by
    rw [same.addresses]
    exact uncut (same.accepts.mpr accepted)
  rw [received] at follows
  obtain ⟨after, applied, stands⟩ := follows
  refine ⟨after, ?_, same.receive (by rw [Store.receive, applied]; rfl)⟩
  simp only [Layout.receive, same.accepts, ite_not, ← same.addresses]
  exact stands

theorem Tracks.find (key : Bytes) :
    ∃ trie, trieLookup store.trie key =
        .ok (trie, if key ∈ layout.set.addresses then some () else none) ∧
      Tracks { store with trie } layout := by
  obtain ⟨abstract, refines, same⟩ := tracks
  obtain ⟨trie, looked, stands⟩ := refines.find key
  exact ⟨trie, same.addresses ▸ looked, abstract, stands, same⟩

/-- The address is looked up first, and the address with the port follows. -/
theorem Tracks.evaluate (order : ByteOrder) (packet : Packet) (side : Side) :
    ∃ next, lookupDifferential order packet side store =
        .ok (next, holdsPacket layout.set.addresses packet side) ∧ Tracks next layout := by
  have looks : ∀ address port, ∃ next, lookupPlace order store address port =
      .ok (next, (address ∈ layout.set.addresses ||
        address ++ word16 port.toNat ∈ layout.set.addresses : Bool)) ∧ Tracks next layout := by
    intro address port
    obtain ⟨trie, looked, tracks⟩ := tracks.find address
    obtain ⟨second, again, last⟩ := tracks.find (address ++ word16 port.toNat)
    rw [lookupPlace, looked, bytes_htons]
    by_cases known : address ∈ layout.set.addresses
    · simp only [known, if_true, decide_true, Bool.true_or]
      exact ⟨_, rfl, tracks⟩
    · simp only [known, if_false, decide_false, Bool.false_or, again]
      refine ⟨_, ?_, last⟩
      split <;> simp [*]
  cases side <;> cases direction : packet.direction <;>
    simp only [lookupDifferential, holdsPacket, FilterTree.atEndpoint, Side.endpoint, direction,
      elim_some, elim_none]
  case near.outgoing | near.incoming | remote.outgoing | remote.incoming => exact looks _ _
  all_goals exact ⟨store, rfl, tracks⟩

theorem Tracks.serves : Serves order side store layout.set.addresses where
  addresses key :=
    have ⟨trie, looked, _⟩ := tracks.find key
    ⟨trie, looked⟩
  packets packet :=
    have ⟨next, looked, _⟩ := tracks.evaluate order packet side
    ⟨next, looked⟩

end

/-- The first filter of a name follows the diffs, and the others stay empty. -/
def Followed (filter : Filter) (name : Bytes) (stores : AddressStores) (layout : Layout) : Prop :=
  ∀ differential ∈ filter.named name, Tracks (stores differential.store)
    (if filter.find name = some differential.store then layout else .start)

/-- The store that the search finds belongs to a filter of the name. -/
theorem find_mem {number : Nat} (found : filter.find name = some number) :
    ∃ differential ∈ filter.differentials,
      differential.name = name ∧ differential.store = number := by
  rw [find_eq, map_eq_some_iff] at found
  obtain ⟨differential, first, rfl⟩ := found
  have member := mem_filter.mp (mem_of_mem_head? first)
  exact ⟨differential, member.1, of_decide_eq_true member.2, rfl⟩

/-- A diff changes the store that the search finds. -/
theorem Followed.update {other : Bytes} (followed : Followed filter name stores layout)
    (distinct : (filter.differentials.map Differential.store).Nodup)
    (uncut : other = name → layout.Uncut diff) {action : FilterAction}
    (applied : filter.diffApply stores other diff = some (after, action)) :
    Followed filter name after (if other = name then layout.receive diff else layout) := by
  intro differential member
  have before := followed differential member
  unfold Filter.diffApply at applied
  cases found : filter.find other with
  | none =>
    rw [found] at applied
    cases applied
    by_cases same : other = name
    · subst same
      simpa [found] using before
    · simpa [same] using before
  | some number =>
    simp only [found, map_eq_some_iff, Prod.exists] at applied
    obtain ⟨next, answer, hooks, received, same⟩ := applied
    cases same
    obtain ⟨first, inside, rfl, rfl⟩ := find_mem found
    obtain ⟨known, named⟩ := mem_filter.mp member
    have own : differential.name = name := of_decide_eq_true named
    by_cases here : differential.store = first.store
    · have only : differential = first := inj_on_of_nodup_map distinct known inside here
      subst only
      rw [← own, found, if_pos rfl] at before
      rw [update_self, ← own, found, if_pos rfl, if_pos rfl]
      exact before.receive (uncut own) received
    · rw [update_of_ne here]
      by_cases same : first.name = name
      · rw [same] at found
        have apart : ¬ some first.store = some differential.store := by
          simpa using Ne.symm here
        rw [found, if_neg apart] at before ⊢
        exact before
      · rwa [if_neg same]

theorem Followed.step (followed : Followed filter name stores layout)
    (distinct : (filter.differentials.map Differential.store).Nodup)
    (uncut : ∀ diff, event.diffFor name = some diff → layout.Uncut diff)
    (stepped : filter.step order stores event = some after) :
    Followed filter name after ((event.diffFor name).elim layout layout.receive) := by
  cases event with
  | update other diff =>
    rw [Filter.step, map_eq_some_iff] at stepped
    obtain ⟨⟨_, action⟩, applied, rfl⟩ := stepped
    have next := followed.update distinct (fun same => uncut diff (if_pos same)) applied
    rw [FilterEvent.diffFor]
    by_cases same : other = name
    · simpa [same] using next
    · simpa [same] using next
  | evaluate side number packet =>
    intro differential member
    have before := followed differential member
    simp only [Filter.step] at stepped
    split at stepped
    · cases stepped
    next next found looked =>
      cases stepped
      by_cases here : differential.store = number
      · subst here
        obtain ⟨moved, again, tracks⟩ := before.evaluate order packet side
        rw [looked] at again
        cases again
        rw [update_self]
        exact tracks
      · rw [update_of_ne here]
        exact before

theorem Followed.run (distinct : (filter.differentials.map Differential.store).Nodup)
    (events : List FilterEvent) (followed : Followed filter name stores layout)
    (uncut : UncutAll layout (diffsFor name events))
    (ran : filter.run order stores events = some after) :
    Followed filter name after ((diffsFor name events).foldl Layout.receive layout) := by
  induction events generalizing stores layout with
  | nil =>
    cases ran
    exact followed
  | cons event events ih =>
    rw [Filter.run, foldlM_cons] at ran
    obtain ⟨middle, stepped, rest⟩ := bind_eq_some_iff.mp ran
    rw [diffsFor, filterMap_cons] at uncut ⊢
    cases mine : event.diffFor name with
    | none =>
      rw [mine] at uncut
      have kept := followed.step distinct (by simp [mine]) stepped
      rw [mine] at kept
      exact ih kept uncut rest
    | some diff =>
      rw [mine] at uncut
      have kept := followed.step distinct (by simpa [mine] using uncut.1) stepped
      rw [mine] at kept
      exact ih kept uncut.2 rest

theorem foldl_receive_set (diffs : List Diff) (layout : Layout) :
    (diffs.foldl Layout.receive layout).set = diffs.foldl AddressSet.receive layout.set := by
  induction diffs generalizing layout with
  | nil => rfl
  | cons diff diffs ih => exact ih (layout.receive diff)

end Following

/-- Where no address of the diffs ends inside an edge of the trie, all filters of a name evaluate packets
against the described addresses if and only if the name has one filter at most, or no address is
described. -/
theorem filters_follow (order : ByteOrder) {description : Bytes} {filter : Filter}
    (parsed : filterParse description = some filter) (events : List FilterEvent)
    {stores : AddressStores} (ran : filter.run order (fun _ => .init) events = some stores)
    (name : Bytes) (uncut : UncutAll .start (diffsFor name events)) :
    (∀ differential ∈ filter.named name,
        Serves order differential.side (stores differential.store) (described name events)) ↔
      (filter.named name).length ≤ 1 ∨ described name events = ∅ := by
  have distinct := filterParse_distinct parsed
  have empty : Followed filter name (fun _ => .init) .start := fun _ _ => by
    split <;> exact .init
  have each := empty.run distinct events uncut ran
  have stored : ((filter.named name).map Differential.store).Nodup :=
    distinct.sublist (filter_sublist.map _)
  rw [Followed, find_eq] at each
  rw [described, ← foldl_receive_set]
  cases named : filter.named name with
  | nil => simp
  | cons first others =>
    rw [named] at each stored
    rw [forall_mem_cons] at each ⊢
    have leads := each.1
    rw [List.head?_cons, map_some, if_pos rfl] at leads
    have idle : ∀ other ∈ others, Tracks (stores other.store) .start := by
      intro other member
      have apart : ¬ some first.store = some other.store := by
        rw [some_inj]
        intro same
        rw [map_cons, same] at stored
        exact (nodup_cons.mp stored).1 (List.mem_map_of_mem member)
      have unused := each.2 other member
      rwa [List.head?_cons, map_some, if_neg apart] at unused
    cases others with
    | nil => simpa using leads.serves
    | cons second others =>
      constructor
      · intro all
        right
        have unused := idle second mem_cons_self
        by_contra some
        obtain ⟨key, known⟩ := Finset.nonempty_iff_ne_empty.mpr some
        obtain ⟨trie, found⟩ := (all.2 second mem_cons_self).addresses key
        obtain ⟨other, missing, -⟩ := unused.find key
        rw [found, if_pos known] at missing
        cases missing
      · intro described
        have none := described.resolve_left (by simp)
        refine ⟨leads.serves, fun other member => ?_⟩
        rw [none]
        exact (idle other member).serves

/-- A client sends from a known address. -/
def knownPacket : Packet where
  ipProtocol := 4
  appProtocol := letter 'T'
  direction := .outgoing
  addresses := ⟨[192, 0, 2, 1], [198, 51, 100, 7]⟩
  ports := ⟨443, 80⟩
  length := 60
  tcpFlags := 2
  family := by decide

/-- Two filters follow diffs of their own while packets are evaluated. The address comes before the
address with a port. -/
def mixedEvents : List FilterEvent :=
  [.update [letter 'x'] ⟨true, 1, 0, 1, [5, 192, 0, 2, 1, 7, 192, 0, 2, 1, 0, 80]⟩,
    .evaluate .near 0 knownPacket,
    .update [letter 'x'] ⟨false, 1, 1, 2, [6, 192, 0, 2, 1, 0, 80, 5, 192, 0, 2, 2]⟩,
    .update [letter 'y'] ⟨true, 1, 0, 1, [7, 198, 51, 100, 7, 0, 80]⟩,
    .evaluate .remote 1 knownPacket]

/-- These are a local filter `x` and a negated remote filter `y`. -/
def mixedFilter : Filter :=
  .disjunction [.differential .near [letter 'x'] 0, .negation (.differential .remote [letter 'y'] 1)]

theorem filters_follow_mixed :
    filterParse [letter '|', 0, 0, 0, 2, letter 'd', 0, 0, 0, 1, letter 'x',
        letter '!', letter 'D', 0, 0, 0, 1, letter 'y'] = some mixedFilter ∧
      ∃ stores, mixedFilter.run .little (fun _ => .init) mixedEvents = some stores ∧
        UncutAll .start (diffsFor [letter 'x'] mixedEvents) ∧
        ((∀ differential ∈ mixedFilter.named [letter 'x'], Serves .little differential.side
            (stores differential.store) (described [letter 'x'] mixedEvents)) ↔
          (mixedFilter.named [letter 'x']).length ≤ 1 ∨
            described [letter 'x'] mixedEvents = ∅) := by
  have uncut : UncutAll .start (diffsFor [letter 'x'] mixedEvents) := by
    refine ⟨fun _ => ⟨fun _ => ?_, fun _ => ?_, trivial⟩,
      fun _ => ⟨fun _ => ?_, fun _ => ?_, trivial⟩, trivial⟩
    all_goals
      apply not_cutsEdge_of_prefix
      decide
  have parsed : filterParse [letter '|', 0, 0, 0, 2, letter 'd', 0, 0, 0, 1, letter 'x',
      letter '!', letter 'D', 0, 0, 0, 1, letter 'y'] = some mixedFilter := rfl
  have runs : (mixedFilter.run .little (fun _ => .init) mixedEvents).isSome = true := by
    decide +kernel
  obtain ⟨stores, ran⟩ := isSome_iff_exists.mp runs
  exact ⟨parsed, stores, ran, uncut,
    filters_follow .little parsed mixedEvents ran [letter 'x'] uncut⟩

/-- These are a local and a remote filter `x`. -/
def twinFilter : Filter :=
  .disjunction [.differential .near [letter 'x'] 0, .differential .remote [letter 'x'] 1]

def twinEvents : List FilterEvent :=
  [.update [letter 'x'] ⟨true, 1, 0, 1, [5, 198, 51, 100, 7]⟩]

/-- The update reaches the local filter only, and the remote one does not find its address. -/
theorem filters_follow_not :
    filterParse [letter '|', 0, 0, 0, 2, letter 'd', 0, 0, 0, 1, letter 'x',
        letter 'D', 0, 0, 0, 1, letter 'x'] = some twinFilter ∧
      described [letter 'x'] twinEvents = {[198, 51, 100, 7]} ∧
      holdsPacket {[198, 51, 100, 7]} knownPacket .remote = true ∧
      ∃ stores, twinFilter.run .little (fun _ => .init) twinEvents = some stores ∧
        (lookupDifferential .little knownPacket .remote (stores 1)).map Prod.snd = .ok false ∧
        ¬∀ differential ∈ twinFilter.named [letter 'x'], Serves .little differential.side
          (stores differential.store) (described [letter 'x'] twinEvents) := by
  have evaluated : (twinFilter.run .little (fun _ => .init) twinEvents).map (fun stores =>
      (lookupDifferential .little knownPacket .remote (stores 1)).map Prod.snd) =
        some (.ok false) := rfl
  obtain ⟨stores, ran, missed⟩ := map_eq_some_iff.mp evaluated
  refine ⟨rfl, by decide, by decide, stores, ran, missed, fun serve => ?_⟩
  obtain ⟨next, found⟩ := (serve ⟨.remote, [letter 'x'], 1⟩ (by decide)).packets knownPacket
  rw [found] at missed
  have value : holdsPacket (described [letter 'x'] twinEvents) knownPacket .remote = false :=
    Except.ok.inj missed
  exact absurd value (by decide)

end Ucollect.Flow
