import Ucollect.Construction.Protocol.Diffs
import Ucollect.Proof.Diffstore.Changes

/-
This file proves when the store of the client agrees with the history of the server.
-/

namespace Ucollect.Diffs
open Library Diffstore Master List Function

/-- A later epoch is newer, whatever its version is. -/
instance : LE Target where
  le first second := first.epoch < second.epoch ∨
    first.epoch = second.epoch ∧ first.version ≤ second.version

section Targets

variable {first second third : Target}

theorem Target.le_def : first ≤ second ↔ first.epoch < second.epoch ∨
    first.epoch = second.epoch ∧ first.version ≤ second.version := Iff.rfl

instance (first second : Target) : Decidable (first ≤ second) :=
  decidable_of_iff _ Target.le_def.symm

theorem Target.le_refl (target : Target) : target ≤ target := by
  rw [le_def]
  omega

theorem Target.le_trans (firstLe : first ≤ second) (secondLe : second ≤ third) : first ≤ third := by
  rw [le_def] at *
  omega

theorem Target.le_antisymm (firstLe : first ≤ second) (secondLe : second ≤ first) :
    first = second := by
  rw [le_def] at firstLe secondLe
  cases first
  cases second
  simp only at firstLe secondLe
  rw [Target.mk.injEq]
  omega

end Targets

def storeTarget (store : Store) : Target := ⟨store.epoch, store.version⟩

def Request.target (request : Request) : Target := ⟨request.epoch, request.toVersion⟩

def Message.offered : Message → Option Target
  | .offer target => some target
  | .diff _ _ => none

def Message.answered : Message → Option Request
  | .offer _ => none
  | .diff request _ => some request

/-- A diff that does not fit the store is asked for again, and here it is for an older version. -/
def Request.LeadsBack (request : Request) (store : Store) : Prop :=
  request.full = false ∧
    (request.epoch ≠ store.epoch ∨ request.fromVersion ≠ store.version) ∧
    ¬ storeTarget store ≤ request.target

instance (request : Request) (store : Store) : Decidable (request.LeadsBack store) :=
  inferInstanceAs (Decidable (_ ∧ _ ∧ _))

namespace System
open List Function

variable (system : System)

/-- These offers are on their way to the client. -/
def offers : List Target := system.toClient.filterMap Message.offered

/-- The answers reach the client in the order of the requests. -/
def pending : List Request := system.toClient.filterMap Message.answered ++ system.toServer

/-- The server has rows up to this version. -/
def Knows (target : Target) : Prop :=
  target.version ≤ (system.histories target.epoch).length ∧
    target ≤ ⟨system.newest, (system.histories system.newest).length⟩

/-- A request does not go back, and an incremental one is not for a future epoch. -/
structure Sound (reached : Target) (request : Request) : Prop where
  known : request.toVersion ≤ (system.histories request.epoch).length
  reachable : request.target ≤ reached
  forward : request.fromVersion ≤ request.toVersion
  origin : if request.full then request.fromVersion = 0 else request.epoch ≤ system.store.epoch

/-- The client has seen the offers up to one of them and is there or will get there. -/
structure Agreement (reached : Target) : Prop where
  synced : system.store.trie =
    (system.histories system.store.epoch).setAt system.store.version
  balanced : system.store.Balanced
  stored : system.store.version ≤ (system.histories system.store.epoch).length
  bodies : ∀ request body, .diff request body ∈ system.toClient → body =
    (system.histories request.epoch).diffUpdate request.full request.fromVersion request.toVersion
  sound : ∀ request ∈ system.pending, system.Sound reached request
  fulls : system.pending.Pairwise fun earlier later => later.full = true →
    earlier.target ≤ later.target
  ahead : ∀ request ∈ system.pending, request.full = true →
    storeTarget system.store ≤ request.target
  behind : storeTarget system.store ≤ reached
  arrives : storeTarget system.store = reached ∨
    ∃ request ∈ system.pending, request.target = reached
  ordered : (reached :: system.offers).Pairwise (· ≤ ·)
  knows : ∀ target ∈ reached :: system.offers, system.Knows target
  published : ∀ target, system.addresses = some target → system.Knows target ∧
    system.histories system.newest ≠ [] ∧ ∀ offer ∈ reached :: system.offers, offer ≤ target
  last : ∀ target, system.lastOffer = some target → (reached :: system.offers).getLast? = some target

/-- The next message is a diff that leads the store back. -/
def Stale : Prop :=
  ∃ request ∈ system.toClient.head?.bind Message.answered, request.LeadsBack system.store

instance : Decidable system.Stale :=
  inferInstanceAs (Decidable (∃ request ∈ system.toClient.head?.bind Message.answered,
    request.LeadsBack system.store))

end System

section Server

variable {system : System} {reached target : Target} {epoch : Nat} {batch : Batch}

theorem agreement_start : System.start.Agreement ⟨0, 0⟩ where
  synced := (setAt_zero _).symm
  balanced := rfl
  stored := Nat.le_refl 0
  bodies := nofun
  sound := nofun
  fulls := .nil
  ahead := nofun
  behind := Target.le_refl _
  arrives := .inl rfl
  ordered := pairwise_singleton _ _
  knows target member := by
    obtain rfl := mem_singleton.mp member
    exact ⟨Nat.le_refl 0, Target.le_refl _⟩
  published := nofun
  last := nofun

theorem grow_histories (system : System) (epoch : Nat) (batch : Batch) :
    (system.grow epoch batch).histories =
      update system.histories epoch (system.histories epoch ++ [batch]) := rfl

theorem grow_history (system : System) (epoch : Nat) (batch : Batch) (other : Nat) :
    (system.grow epoch batch).histories other = system.histories other ∨
      (system.grow epoch batch).histories other = system.histories other ++ [batch] := by
  by_cases same : other = epoch
  · right
    rw [grow_histories, same, update_self]
  · left
    rw [grow_histories, update_of_ne same]

theorem grow_length (system : System) (epoch : Nat) (batch : Batch) (other : Nat) :
    (system.histories other).length ≤ ((system.grow epoch batch).histories other).length := by
  rcases grow_history system epoch batch other with same | longer
  · rw [same]
  · rw [longer, length_append]
    omega

theorem grow_setAt {version : Nat} (known : version ≤ (system.histories epoch).length)
    (other : Nat) : ((system.grow other batch).histories epoch).setAt version =
      (system.histories epoch).setAt version := by
  rcases grow_history system other batch epoch with same | longer
  · rw [same]
  · rw [longer, setAt_concat known]

theorem grow_diffUpdate {toVersion : Nat} (known : toVersion ≤ (system.histories epoch).length)
    (other fromVersion : Nat) (full : Bool) :
    ((system.grow other batch).histories epoch).diffUpdate full fromVersion toVersion =
      (system.histories epoch).diffUpdate full fromVersion toVersion := by
  rcases grow_history system other batch epoch with same | longer
  · rw [same]
  · rw [longer, diffUpdate_concat full known]

theorem System.Knows.grow (knows : system.Knows target) :
    (system.grow epoch batch).Knows target := by
  refine ⟨le_trans knows.1 (grow_length system epoch batch target.epoch), ?_⟩
  have top := knows.2
  have longer := grow_length system epoch batch system.newest
  rw [Target.le_def] at top ⊢
  simp only at top ⊢
  change target.epoch < max system.newest epoch ∨ target.epoch = max system.newest epoch ∧
    target.version ≤ ((system.grow epoch batch).histories (max system.newest epoch)).length
  by_cases older : epoch ≤ system.newest
  · rw [max_eq_left older]
    omega
  · left
    have newer : system.newest < epoch := not_le.mp older
    rw [max_eq_right (le_of_lt newer)]
    omega

theorem mem_pending_of_diff {request : Request} {body : Bytes}
    (member : .diff request body ∈ system.toClient) : request ∈ system.pending :=
  mem_append_left _ (mem_filterMap.mpr ⟨_, member, rfl⟩)

section

variable (agreement : system.Agreement reached)
include agreement

/-- New rows leave everything that was sent as it was. -/
theorem System.Agreement.grow : (system.grow epoch batch).Agreement reached where
  synced := agreement.synced.trans (grow_setAt agreement.stored epoch).symm
  balanced := agreement.balanced
  stored := le_trans agreement.stored (grow_length system epoch batch system.store.epoch)
  bodies request body member := by
    have known := (agreement.sound request (mem_pending_of_diff member)).known
    rw [agreement.bodies request body member, grow_diffUpdate known]
  sound request member := by
    have sound := agreement.sound request member
    exact ⟨le_trans sound.known (grow_length system epoch batch request.epoch), sound.reachable,
      sound.forward, sound.origin⟩
  fulls := agreement.fulls
  ahead := agreement.ahead
  behind := agreement.behind
  arrives := agreement.arrives
  ordered := agreement.ordered
  knows target member := (agreement.knows target member).grow
  published target found := by
    obtain ⟨knows, rows, upTo⟩ := agreement.published target found
    refine ⟨knows.grow, ?_, upTo⟩
    change (system.grow epoch batch).histories (max system.newest epoch) ≠ []
    by_cases older : epoch ≤ system.newest
    · rw [max_eq_left older]
      rcases grow_history system epoch batch system.newest with same | longer
      · rw [same]
        exact rows
      · rw [longer]
        exact append_ne_nil_of_right_ne_nil _ (cons_ne_nil _ _)
    · rw [max_eq_right (le_of_lt (not_le.mp older)), grow_histories, update_self]
      exact append_ne_nil_of_right_ne_nil _ (cons_ne_nil _ _)
  last := agreement.last

/-- An offer of a newest version goes behind the others. -/
theorem System.Agreement.offer (knows : system.Knows target)
    (rows : system.histories system.newest ≠ [])
    (upTo : ∀ offer ∈ reached :: system.offers, offer ≤ target) :
    System.Agreement { system with
      addresses := some target
      toClient := system.toClient ++ [.offer target]
      lastOffer := some target } reached := by
  have offers : System.offers { system with
      addresses := some target
      toClient := system.toClient ++ [.offer target]
      lastOffer := some target } = system.offers ++ [target] := by
    rw [System.offers, filterMap_append]
    rfl
  have pending : System.pending { system with
      addresses := some target
      toClient := system.toClient ++ [.offer target]
      lastOffer := some target } = system.pending := by
    rw [System.pending, filterMap_append]
    exact congrArg (· ++ _) (append_nil _)
  have member : ∀ other ∈ reached :: (system.offers ++ [target]),
      other ∈ reached :: system.offers ∨ other = target := by
    intro other inside
    rw [← cons_append, mem_append, mem_singleton] at inside
    exact inside
  refine ⟨agreement.synced, agreement.balanced, agreement.stored, ?_, ?_, ?_, ?_, agreement.behind,
    ?_, ?_, ?_, ?_, ?_⟩
  · intro request body inside
    rcases mem_append.mp inside with old | new
    · exact agreement.bodies request body old
    · cases mem_singleton.mp new
  · rw [pending]
    exact fun request inside => ⟨(agreement.sound request inside).known,
      (agreement.sound request inside).reachable, (agreement.sound request inside).forward,
      (agreement.sound request inside).origin⟩
  · rw [pending]
    exact agreement.fulls
  · rw [pending]
    exact agreement.ahead
  · rw [pending]
    exact agreement.arrives
  · rw [offers, ← cons_append, pairwise_append]
    exact ⟨agreement.ordered, pairwise_singleton _ _, fun other inside last memberLast => by
      rw [mem_singleton.mp memberLast]
      exact upTo other inside⟩
  · rw [offers]
    intro other inside
    rcases member other inside with old | rfl
    · exact agreement.knows other old
    · exact knows
  · intro other found
    obtain rfl := Option.some.inj found
    refine ⟨knows, rows, ?_⟩
    rw [offers]
    intro offer inside
    rcases member offer inside with old | rfl
    · exact upTo offer old
    · exact Target.le_refl _
  · intro other found
    obtain rfl := Option.some.inj found
    rw [offers, ← cons_append, List.getLast?_concat]

theorem System.Agreement.sendVersion : system.sendVersion.Agreement reached := by
  unfold System.sendVersion
  split
  · exact agreement
  · next target found =>
      obtain ⟨knows, rows, upTo⟩ := agreement.published target found
      have same : ({ system with
          toClient := system.toClient ++ [.offer target]
          lastOffer := some target } : System) = { system with
            addresses := some target
            toClient := system.toClient ++ [.offer target]
            lastOffer := some target } := by
        rw [System.mk.injEq]
        exact ⟨rfl, rfl, found, rfl, rfl, rfl, rfl⟩
      rw [same]
      exact agreement.offer knows rows upTo

theorem System.Agreement.checkConf : system.checkConf.Agreement reached := by
  unfold System.checkConf
  simp only
  split
  · exact agreement
  · next changed =>
      by_cases empty : (system.histories system.newest).length = 0
      · have none : system.addresses = .none := by
          cases found : system.addresses with
          | none => rfl
          | some target =>
            have rows := (agreement.published target found).2.1
            exact absurd (length_eq_zero_iff.mp empty) rows
        rw [System.versionQuery, if_pos empty] at changed
        exact absurd none changed
      · rw [System.versionQuery, if_neg empty]
        have rows : system.histories system.newest ≠ [] := fun nil => empty (by rw [nil]; rfl)
        exact agreement.offer ⟨le_refl _, Target.le_refl _⟩ rows
          fun offer member => (agreement.knows offer member).2

/-- An answer takes the place of its request. -/
theorem System.Agreement.provideDiff : system.provideDiff.Agreement reached := by
  unfold System.provideDiff
  split
  · exact agreement
  · next request rest queued =>
      have offers : ∀ body, System.offers { system with
          toServer := rest
          toClient := system.toClient ++ [.diff request body] } = system.offers := by
        intro body
        rw [System.offers, filterMap_append]
        exact append_nil _
      have pending : ∀ body, System.pending { system with
          toServer := rest
          toClient := system.toClient ++ [.diff request body] } = system.pending := by
        intro body
        rw [System.pending, System.pending, filterMap_append, queued, append_assoc]
        rfl
      have asked : request ∈ system.pending := by
        rw [System.pending, queued]
        exact mem_append_right _ mem_cons_self
      refine ⟨agreement.synced, agreement.balanced, agreement.stored, ?_, ?_, ?_, ?_,
        agreement.behind, ?_, ?_, ?_, ?_, ?_⟩
      · intro other body inside
        rcases mem_append.mp inside with old | new
        · exact agreement.bodies other body old
        · have origin := (agreement.sound request asked).origin
          cases mem_singleton.mp new
          split
          · next full =>
              rw [if_pos full] at origin
              rw [origin]
          · rfl
      · rw [pending]
        exact fun other inside => ⟨(agreement.sound other inside).known,
          (agreement.sound other inside).reachable, (agreement.sound other inside).forward,
          (agreement.sound other inside).origin⟩
      · rw [pending]
        exact agreement.fulls
      · rw [pending]
        exact agreement.ahead
      · rw [pending]
        exact agreement.arrives
      · rw [offers]
        exact agreement.ordered
      · rw [offers]
        exact agreement.knows
      · rw [offers]
        exact agreement.published
      · rw [offers]
        exact agreement.last

end

end Server

section Client

variable {system : System} {reached target : Target} {request : Request} {body : Bytes}
  {rest : List Message}

/-- The client has seen one more offer, and something is on its way to it. -/
theorem System.Agreement.seen (agreement : system.Agreement reached)
    (next : system.toClient = .offer target :: rest) :
    target ∈ reached :: system.offers ∧ reached ≤ target ∧
      system.offers = target :: rest.filterMap Message.offered ∧
      system.pending = rest.filterMap Message.answered ++ system.toServer := by
  have offers : system.offers = target :: rest.filterMap Message.offered := by
    rw [System.offers, next]
    rfl
  have ordered := agreement.ordered
  rw [offers, pairwise_cons] at ordered
  refine ⟨?_, ordered.1 target mem_cons_self, offers, ?_⟩
  · rw [offers]
    exact mem_cons_of_mem _ mem_cons_self
  · rw [System.pending, next]
    rfl

/-- An offer moves the aim, and a new request may go out for it. -/
theorem System.Agreement.receiveOffer (agreement : system.Agreement reached)
    (next : system.toClient = .offer target :: rest) (requests : List Request)
    (sound : ∀ request ∈ requests, request.target = target ∧
      request.fromVersion ≤ request.toVersion ∧
      if request.full then request.fromVersion = 0 else request.epoch ≤ system.store.epoch)
    (arrives : storeTarget system.store = target ∨ requests ≠ []) (single : requests.length ≤ 1) :
    System.Agreement { system with
      toClient := rest
      toServer := system.toServer ++ requests } target := by
  obtain ⟨member, forward, offers, pending⟩ := agreement.seen next
  have pendingNext : System.pending { system with
      toClient := rest
      toServer := system.toServer ++ requests } = system.pending ++ requests := by
    rw [pending, append_assoc]
    rfl
  have ordered := agreement.ordered
  rw [offers, pairwise_cons] at ordered
  have behind := Target.le_trans agreement.behind forward
  have below : ∀ request ∈ system.pending, request.target ≤ target := fun request inside =>
    Target.le_trans (agreement.sound request inside).reachable forward
  have known := (agreement.knows target member).1
  refine ⟨agreement.synced, agreement.balanced, agreement.stored, ?_, ?_, ?_, ?_, behind, ?_,
    ordered.2, ?_, ?_, ?_⟩
  · intro request body inside
    apply agreement.bodies request body
    rw [next]
    exact mem_cons_of_mem _ inside
  · rw [pendingNext]
    intro request inside
    rcases mem_append.mp inside with old | new
    · have before := agreement.sound request old
      exact ⟨before.known, below request old, before.forward, before.origin⟩
    · obtain ⟨aims, moves, origin⟩ := sound request new
      refine ⟨?_, by rw [aims]; exact Target.le_refl _, moves, origin⟩
      rw [← aims] at known
      exact known
  · rw [pendingNext, pairwise_append]
    refine ⟨agreement.fulls, ?_, ?_⟩
    · match requests, single with
      | [], _ => exact .nil
      | [request], _ => exact pairwise_singleton _ _
    · intro earlier old later new _
      rw [(sound later new).1]
      exact below earlier old
  · rw [pendingNext]
    intro request inside full
    rcases mem_append.mp inside with old | new
    · exact agreement.ahead request old full
    · rw [(sound request new).1]
      exact behind
  · rcases arrives with there | asked
    · exact .inl there
    · obtain ⟨request, new⟩ := exists_mem_of_ne_nil _ asked
      right
      rw [pendingNext]
      exact ⟨request, mem_append_right _ new, (sound request new).1⟩
  · intro other inside
    apply agreement.knows other
    rw [offers]
    exact mem_cons_of_mem _ inside
  · intro other found
    obtain ⟨knows, rows, upTo⟩ := agreement.published other found
    refine ⟨knows, rows, fun offer inside => upTo offer ?_⟩
    rw [offers]
    exact mem_cons_of_mem _ inside
  · intro other found
    have last := agreement.last other found
    rw [offers, List.getLast?_cons_cons] at last
    exact last

/-- A diff is the next thing that the client waits for. -/
theorem pending_of_diff (next : system.toClient = .diff request body :: rest) :
    system.pending = request :: (rest.filterMap Message.answered ++ system.toServer) := by
  rw [System.pending, next]
  rfl

theorem offers_of_diff (next : system.toClient = .diff request body :: rest) :
    system.offers = rest.filterMap Message.offered := by
  rw [System.offers, next]
  rfl

section

variable (agreement : system.Agreement reached)
include agreement

/-- A diff that fits does not move the store back. -/
theorem System.Agreement.forward (next : system.toClient = .diff request body :: rest)
    (fits : request.full = true ∨
      request.epoch = system.store.epoch ∧ request.fromVersion = system.store.version) :
    storeTarget system.store ≤ request.target := by
  have waiting : request ∈ system.pending := by
    rw [pending_of_diff next]
    exact mem_cons_self
  rcases fits with full | ⟨sameEpoch, sameVersion⟩
  · exact agreement.ahead request waiting full
  · have moves := (agreement.sound request waiting).forward
    rw [Target.le_def]
    rw [sameVersion] at moves
    exact .inr ⟨sameEpoch.symm, moves⟩

/-- A diff that fits brings the store to its version. -/
theorem System.Agreement.receiveFits (next : system.toClient = .diff request body :: rest)
    (fits : request.full = true ∨
      request.epoch = system.store.epoch ∧ request.fromVersion = system.store.version)
    {store : Store} (epoch : store.epoch = request.epoch)
    (version : store.version = request.toVersion)
    (synced : store.trie = (system.histories request.epoch).setAt request.toVersion)
    (balanced : store.Balanced) :
    System.Agreement { system with toClient := rest, store } reached := by
  have pending := pending_of_diff next
  have offers := offers_of_diff next
  have forward := agreement.forward next fits
  have waiting : request ∈ system.pending := by
    rw [pending]
    exact mem_cons_self
  have aims : storeTarget store = request.target := by
    rw [storeTarget, epoch, version]
    rfl
  have sound := agreement.sound request waiting
  have inside : ∀ other ∈ rest.filterMap Message.answered ++ system.toServer,
      other ∈ system.pending := by
    intro other member
    rw [pending]
    exact mem_cons_of_mem _ member
  have fulls := agreement.fulls
  rw [pending, pairwise_cons] at fulls
  refine ⟨?_, balanced, ?_, ?_, ?_, fulls.2, ?_, ?_, ?_, ?_, ?_, ?_, ?_⟩
  · change store.trie = (system.histories store.epoch).setAt store.version
    rw [synced, epoch, version]
  · change store.version ≤ (system.histories store.epoch).length
    rw [epoch, version]
    exact sound.known
  · intro other body member
    apply agreement.bodies other body
    rw [next]
    exact mem_cons_of_mem _ member
  · intro other member
    have before := agreement.sound other (inside other member)
    refine ⟨before.known, before.reachable, before.forward, ?_⟩
    have origin := before.origin
    split
    · next full => rwa [if_pos full] at origin
    · next incremental =>
        rw [if_neg incremental] at origin
        change other.epoch ≤ store.epoch
        rw [Target.le_def] at forward
        simp only [storeTarget, Request.target] at forward
        omega
  · intro other member full
    change storeTarget store ≤ _
    rw [aims]
    exact fulls.1 other member full
  · change storeTarget store ≤ _
    rw [aims]
    exact sound.reachable
  · change storeTarget store = _ ∨ _
    rw [aims]
    rcases agreement.arrives with there | ⟨other, member, aim⟩
    · left
      rw [there] at forward
      exact Target.le_antisymm sound.reachable forward
    · rw [pending] at member
      rcases mem_cons.mp member with rfl | later
      · exact .inl aim
      · exact .inr ⟨other, later, aim⟩
  · have ordered := agreement.ordered
    rw [offers] at ordered
    exact ordered
  · have knows := agreement.knows
    rw [offers] at knows
    exact knows
  · have published := agreement.published
    rw [offers] at published
    exact published
  · have last := agreement.last
    rw [offers] at last
    exact last

/-- A diff that does not fit is asked for again from the version of the store. -/
theorem System.Agreement.receiveMisfit (next : system.toClient = .diff request body :: rest)
    (incremental : request.full = false) (sameEpoch : request.epoch = system.store.epoch)
    (ahead : system.store.version ≤ request.toVersion) :
    System.Agreement { system with
      toClient := rest
      toServer := system.toServer ++
        [⟨false, request.epoch, system.store.version, request.toVersion⟩] } reached := by
  have pending := pending_of_diff next
  have offers := offers_of_diff next
  have pendingNext : System.pending { system with
      toClient := rest
      toServer := system.toServer ++
        [⟨false, request.epoch, system.store.version, request.toVersion⟩] } =
      rest.filterMap Message.answered ++ system.toServer ++
        [⟨false, request.epoch, system.store.version, request.toVersion⟩] := by
    rw [append_assoc]
    rfl
  have waiting : request ∈ system.pending := by
    rw [pending]
    exact mem_cons_self
  have sound := agreement.sound request waiting
  have inside : ∀ other ∈ rest.filterMap Message.answered ++ system.toServer,
      other ∈ system.pending := by
    intro other member
    rw [pending]
    exact mem_cons_of_mem _ member
  have fulls := agreement.fulls
  rw [pending, pairwise_cons] at fulls
  refine ⟨agreement.synced, agreement.balanced, agreement.stored, ?_, ?_, ?_, ?_, agreement.behind,
    ?_, ?_, ?_, ?_, ?_⟩
  · intro other body member
    apply agreement.bodies other body
    rw [next]
    exact mem_cons_of_mem _ member
  · rw [pendingNext]
    intro other member
    rcases mem_append.mp member with old | new
    · have before := agreement.sound other (inside other old)
      exact ⟨before.known, before.reachable, before.forward, before.origin⟩
    · obtain rfl := mem_singleton.mp new
      exact ⟨sound.known, sound.reachable, ahead, le_of_eq sameEpoch⟩
  · rw [pendingNext, pairwise_append]
    refine ⟨fulls.2, pairwise_singleton _ _, ?_⟩
    intro earlier _ later new full
    rw [mem_singleton.mp new] at full
    cases full
  · rw [pendingNext]
    intro other member full
    rcases mem_append.mp member with old | new
    · exact agreement.ahead other (inside other old) full
    · rw [mem_singleton.mp new] at full
      cases full
  · rw [pendingNext]
    rcases agreement.arrives with there | ⟨other, member, aim⟩
    · exact .inl there
    · right
      rw [pending] at member
      rcases mem_cons.mp member with rfl | later
      · exact ⟨_, mem_append_right _ (mem_singleton_self _), aim⟩
      · exact ⟨other, mem_append_left _ later, aim⟩
  · have ordered := agreement.ordered
    rw [offers] at ordered
    exact ordered
  · have knows := agreement.knows
    rw [offers] at knows
    exact knows
  · have published := agreement.published
    rw [offers] at published
    exact published
  · have last := agreement.last
    rw [offers] at last
    exact last

/-- The client keeps the agreement, or it asks for the whole configuration. -/
def Keeps (result : Except Stop System) : Prop :=
  match result with
  | .error stop => stop = .configReload
  | .ok system => ∃ reached, system.Agreement reached

theorem communicate_offer (next : system.toClient = .offer target :: rest) :
    Keeps system.communicate := by
  obtain ⟨-, forward, -, -⟩ := agreement.seen next
  have behind := Target.le_trans agreement.behind forward
  rw [Target.le_def] at behind
  rw [System.communicate, next]
  simp only [diffAddrStoreAction]
  split
  · next there =>
      have seen := agreement.receiveOffer next [] nofun
        (.inl (by rw [storeTarget, ← there.1, ← there.2])) (Nat.zero_le _)
      rw [append_nil] at seen
      exact ⟨target, seen⟩
  · split
    · rfl
    · split
      · refine ⟨target, agreement.receiveOffer next [⟨true, target.epoch, 0, target.version⟩] ?_
          (.inr (cons_ne_nil _ _)) (le_refl _)⟩
        intro request member
        obtain rfl := mem_singleton.mp member
        exact ⟨rfl, Nat.zero_le _, rfl⟩
      · next same =>
          have equal := not_not.mp same
          refine ⟨target, agreement.receiveOffer next
            [⟨false, target.epoch, system.store.version, target.version⟩] ?_
            (.inr (cons_ne_nil _ _)) (le_refl _)⟩
          intro request member
          obtain rfl := mem_singleton.mp member
          refine ⟨rfl, ?_, le_of_eq equal⟩
          simp only [storeTarget] at behind ⊢
          omega

theorem communicate_full (next : system.toClient = .diff request body :: rest)
    (full : request.full = true) :
    Keeps system.communicate := by
  have waiting : request ∈ system.pending := by
    rw [pending_of_diff next]
    exact mem_cons_self
  have origin := (agreement.sound request waiting).origin
  rw [if_pos full] at origin
  have content := agreement.bodies request body (by rw [next]; exact mem_cons_self)
  rw [full, origin] at content
  rw [System.communicate, next]
  simp only [full, origin, content, apply_full]
  exact ⟨reached, agreement.receiveFits next (.inl full) rfl rfl
    (updates_full_trie agreement.balanced) (agreement.balanced.reset.2.changeAll _)⟩

theorem communicate_incremental (next : system.toClient = .diff request body :: rest)
    (incremental : request.full = false) (fresh : ¬ system.Stale) : Keeps system.communicate := by
  have waiting : request ∈ system.pending := by
    rw [pending_of_diff next]
    exact mem_cons_self
  have sound := agreement.sound request waiting
  have origin := sound.origin
  rw [incremental] at origin
  have content := agreement.bodies request body (by rw [next]; exact mem_cons_self)
  rw [incremental] at content
  by_cases fits : request.epoch = system.store.epoch ∧ request.fromVersion = system.store.version
  · have synced := agreement.synced
    rw [← fits.1, ← fits.2] at synced
    rw [System.communicate, next]
    simp only [incremental, content, apply_incremental _ fits.1 fits.2]
    exact ⟨reached, agreement.receiveFits next (.inr fits) rfl rfl
      (updates_trie synced sound.forward) (agreement.balanced.changeAll _)⟩
  · have ahead : storeTarget system.store ≤ request.target := by
      by_contra older
      have first : request ∈ system.toClient.head?.bind Message.answered := by
        rw [next]
        rfl
      exact fresh ⟨request, first, incremental, not_and_or.mp fits, older⟩
    rw [Target.le_def] at ahead
    simp only [storeTarget, Request.target] at ahead
    have sameEpoch : request.epoch = system.store.epoch := by
      simp only [Bool.false_eq_true, if_false] at origin
      omega
    have otherVersion : request.fromVersion ≠ system.store.version := fun same =>
      fits ⟨sameEpoch, same⟩
    have dropped : diffAddrStoreApply system.store request.full request.epoch request.fromVersion
        request.toVersion body = some (system.store, .incremental system.store.version, []) := by
      rw [diffAddrStoreApply, if_neg (fun other => other.1 sameEpoch),
        if_pos ⟨otherVersion, incremental⟩]
    rw [System.communicate, next]
    simp only [dropped]
    exact ⟨reached, agreement.receiveMisfit next incremental sameEpoch (by omega)⟩

/-- A message that is not stale keeps the agreement. -/
theorem communicate_keeps (fresh : ¬ system.Stale) : Keeps system.communicate := by
  cases next : system.toClient with
  | nil =>
    rw [System.communicate, next]
    exact ⟨reached, agreement⟩
  | cons message rest =>
    cases message with
    | offer target => exact communicate_offer agreement next
    | diff request body =>
      cases full : request.full with
      | true => exact communicate_full agreement next full
      | false => exact communicate_incremental agreement next full fresh

end

end Client

section Runs

variable {system : System} {reached : Target}

/-- The store has the set of its version, and it has the last version when nothing is in flight. -/
structure Agrees (system : System) : Prop where
  synced : system.store.trie =
    (system.histories system.store.epoch).setAt system.store.version
  settled : system.toClient = [] → system.toServer = [] → ∀ target,
    system.lastOffer = some target → storeTarget system.store = target

/-- No step of the run receives a stale diff. -/
def Orderly (start : System) (events : List Event) : Prop :=
  ∀ count system, start.run (events.take count) = .ok system →
    events[count]? = some .receive → ¬ system.Stale

theorem System.Agreement.agrees (agreement : system.Agreement reached) : Agrees system where
  synced := agreement.synced
  settled toClient toServer target offered := by
    have empty : system.offers = [] := by
      rw [System.offers, toClient]
      rfl
    have last := agreement.last target offered
    rw [empty, List.getLast?_singleton, Option.some.injEq] at last
    rcases agreement.arrives with there | ⟨request, member, -⟩
    · rw [there, last]
    · rw [System.pending, toClient, toServer] at member
      exact absurd member not_mem_nil

theorem step_keeps (agreement : system.Agreement reached) (event : Event)
    (fresh : event = .receive → ¬ system.Stale) : Keeps (system.step event) := by
  cases event with
  | grow epoch batch => exact ⟨reached, agreement.grow⟩
  | check => exact ⟨reached, agreement.checkConf⟩
  | offer => exact ⟨reached, agreement.sendVersion⟩
  | answer => exact ⟨reached, agreement.provideDiff⟩
  | receive => exact communicate_keeps agreement (fresh rfl)

theorem run_cons (system : System) (event : Event) (events : List Event) :
    system.run (event :: events) = (system.step event).bind fun next => next.run events := by
  rw [System.run, foldlM_cons]
  rfl

/-- Every run without a stale diff keeps the agreement. -/
theorem run_keeps {events : List Event} (agreement : system.Agreement reached)
    (orderly : Orderly system events) : Keeps (system.run events) := by
  induction events generalizing system reached with
  | nil => exact ⟨reached, agreement⟩
  | cons event events ih =>
    have kept := step_keeps agreement event fun received =>
      orderly 0 system rfl (by rw [received]; rfl)
    rw [run_cons]
    cases stepped : system.step event with
    | error stop =>
      rw [stepped] at kept
      exact kept
    | ok next =>
      rw [stepped] at kept
      obtain ⟨nextReached, nextAgreement⟩ := kept
      refine ih nextAgreement fun count state ran received => ?_
      apply orderly (count + 1) state _ received
      rw [take_succ_cons, run_cons, stepped]
      exact ran

/-- The store agrees with the server in every run that receives no stale diff. -/
theorem store_agrees_of_orderly (events : List Event) (orderly : Orderly System.start events) :
    System.start.run events ≠ .error .corrupted ∧
      ∀ system, System.start.run events = .ok system → Agrees system := by
  have kept := run_keeps agreement_start orderly
  constructor
  · intro stopped
    rw [stopped] at kept
    cases kept
  · intro system ran
    rw [ran] at kept
    obtain ⟨reached, agreement⟩ := kept
    exact agreement.agrees

end Runs

/-- One address comes or goes with a version. -/
def hostBatch (host : UInt8) (add : Bool) : Batch where
  changes := [⟨[10, 0, 0, host], add⟩]
  distinct := nodup_singleton _
  legal := by simp

/-- Two requests are open at once, and the second answer does not fit. -/
def crossingEvents : List Event :=
  [.grow 1 (hostBatch 1 true), .check, .receive, .answer, .receive,
    .grow 1 (hostBatch 2 true), .check, .grow 1 (hostBatch 1 false), .check, .receive, .receive,
    .answer, .answer, .receive, .receive, .answer, .receive]

theorem orderly_of_all {start : System} {events : List Event}
    (all : ((List.range events.length).all fun count =>
      match start.run (events.take count) with
      | .error _ => true
      | .ok system => !decide system.Stale) = true) : Orderly start events := by
  intro count system ran received stale
  have inside := (List.getElem?_eq_some_iff.mp received).1
  have passed := List.all_eq_true.mp all count (mem_range.mpr inside)
  rw [ran] at passed
  simp only [decide_eq_true stale, Bool.not_true, Bool.false_eq_true] at passed

/-- The client catches up although an answer was for an old version. -/
theorem store_agrees_crossing :
    System.start.run crossingEvents ≠ .error .corrupted ∧
      ∀ system, System.start.run crossingEvents = .ok system → Agrees system :=
  store_agrees_of_orderly crossingEvents (orderly_of_all (by decide +kernel))

/-- An offer stands between two answers, and the second one is asked for again too late. -/
def overtakenEvents : List Event :=
  [.grow 1 (hostBatch 1 true), .check, .receive, .answer, .receive,
    .grow 1 (hostBatch 2 true), .check, .grow 1 (hostBatch 3 true), .check, .receive, .receive,
    .answer, .grow 1 (hostBatch 4 true), .check, .answer, .receive, .receive, .receive,
    .answer, .answer, .receive, .receive, .answer, .receive]

theorem overtaken_result :
    (match System.start.run overtakenEvents with
      | .error _ => false
      | .ok system => system.toClient.isEmpty && system.toServer.isEmpty &&
          system.lastOffer == some ⟨1, 4⟩ && storeTarget system.store == ⟨1, 3⟩ &&
          !decide (system.store.trie = (system.histories 1).setAt 3)) = true := by
  decide +kernel

/-- The store is left at version 3 with the addresses of version 4. -/
theorem store_overtaken :
    ¬ (System.start.run overtakenEvents ≠ .error .corrupted ∧
      ∀ system, System.start.run overtakenEvents = .ok system → Agrees system) := by
  rintro ⟨-, agrees⟩
  have result := overtaken_result
  cases ran : System.start.run overtakenEvents with
  | error stop =>
    rw [ran] at result
    cases result
  | ok system =>
    rw [ran] at result
    simp only [Bool.and_eq_true, List.isEmpty_iff, beq_iff_eq] at result
    obtain ⟨⟨⟨⟨toClient, toServer⟩, offered⟩, stored⟩, -⟩ := result
    have settled := (agrees system ran).settled toClient toServer _ offered
    rw [stored] at settled
    cases settled

end Ucollect.Diffs
