import Ucollect.Construction.Protocol.Activation
import Ucollect.Proof.Activation.Messages
import Ucollect.Proof.Activation.Routing
import Ucollect.Proof.Activation.Switching

/-
This file proves that a client and the server agree on the active plugins whenever nothing is on
its way.
-/

namespace Ucollect.Activation
open Library Core Master List Option

section Router

variable {routing : Plugins}

theorem activateClient_activations (plugin : Bytes) (index : Nat) (cid otherPlugin : Bytes) :
    (routing.activateClient plugin index cid).activations otherPlugin cid =
      (routing.activations otherPlugin cid || otherPlugin = plugin) := by
  rw [Plugins.activateClient]
  split
  · next active =>
      change routing.activations otherPlugin cid = _
      by_cases same : otherPlugin = plugin
      · subst same
        have on : routing.activations otherPlugin cid = true := active
        rw [on, Bool.true_or]
      · simp [same]
  · change (if otherPlugin = plugin ∧ cid = cid then true
      else routing.activations otherPlugin cid) = _
    by_cases same : otherPlugin = plugin <;> simp [same]

theorem activateEach_activations (index : Nat) (cid plugin : Bytes) (names : List Bytes) :
    (routing.activateEach index cid names).activations plugin cid =
      (routing.activations plugin cid || plugin ∈ names) := by
  induction names generalizing routing with
  | nil => simp [Plugins.activateEach]
  | cons name names ih =>
    have rest := @ih (routing.activateClient name index cid)
    rw [Plugins.activateEach, foldl_cons]
    rw [Plugins.activateEach] at rest
    rw [rest, activateClient_activations, Bool.or_assoc]
    simp

theorem deactivateEach_activations (index : Nat) (cid plugin : Bytes) (names : List Bytes) :
    (routing.deactivateEach index cid names).activations plugin cid =
      (routing.activations plugin cid && plugin ∉ names) := by
  induction names generalizing routing with
  | nil => simp [Plugins.deactivateEach]
  | cons name names ih =>
    have rest := @ih (routing.deactivateClient name index cid)
    rw [Plugins.deactivateEach, foldl_cons]
    rw [Plugins.deactivateEach] at rest
    rw [rest, deactivateClient_activations, Bool.and_assoc]
    simp

/-- The check leaves exactly the required plugins active. -/
theorem checkVersions_activations {index : Nat} {cid : Bytes} {table : List KnownPlugin}
    {known versions : List Version} {next : Plugins}
    (before : ∀ name, routing.activations name cid = true ↔
      ∃ version ∈ known, version.name = name ∧ version.activity = true)
    (checked : routing.checkVersions index cid table known versions = some next) (name : Bytes) :
    next.activations name cid = true ↔
      ∃ version ∈ versions, version.name = name ∧ version.required table = true := by
  unfold Plugins.checkVersions at checked
  simp only at checked
  split at checked
  · cases checked
    have now : (∃ version ∈ versions, version.name = name ∧ version.required table = true) ↔
        name ∈ (versions.filter (·.required table)).map Version.name := by
      simp only [List.mem_map, mem_filter]
      constructor
      · rintro ⟨version, member, same, required⟩
        exact ⟨version, ⟨member, required⟩, same⟩
      · rintro ⟨version, ⟨member, required⟩, same⟩
        exact ⟨version, member, same, required⟩
    have prev : routing.activations name cid = true ↔
        name ∈ (known.filter (·.activity)).map Version.name := by
      rw [before]
      simp only [List.mem_map, mem_filter]
      constructor
      · rintro ⟨version, member, same, active⟩
        exact ⟨version, ⟨member, active⟩, same⟩
      · rintro ⟨version, ⟨member, active⟩, same⟩
        exact ⟨version, member, same, active⟩
    rw [now, activateEach_activations, deactivateEach_activations, deactivateEach_activations]
    simp only [Bool.or_eq_true, Bool.and_eq_true, decide_eq_true_eq, mem_append, mem_filter, prev]
    tauto
  · cases checked

end Router

/-- These messages carry the lists of plugins. -/
def announcements (messages : List Bytes) : List Bytes :=
  messages.filterMap fun message => match message with
    | [] => none
    | type :: params => if type = letter 'V' then some params else none

/-- The message was made for these plugins. -/
structure Announces (plugins : List Plugin) (params : Bytes) : Prop where
  named : ∀ plugin ∈ plugins, Named plugin
  params : params = plugins.flatMap Plugin.describe

/-- The message asks for some changes. -/
def Asks (message : Bytes) (changes : List Change) : Prop :=
  changes ≠ [] ∧ (∀ change ∈ changes, Askable change) ∧
    ∃ params, message = letter 'A' :: params ∧ activationMessage changes = some params

/-- Nothing that is on its way to the client changes it. -/
def Idle (plugins : List Plugin) (messages : List Bytes) : Prop :=
  ∀ message ∈ messages, ∀ changes, Asks message changes →
    ∀ change ∈ changes, Agrees plugins (asked change)

/-- Every message on its way was made by the other side. -/
structure Channels (endpoint : Endpoint) (state : Agreement) : Prop where
  loadable : Loadable endpoint.sizeBits state.plugins
  spoken : ∀ params ∈ announcements state.toServer, ∃ plugins,
    Loadable endpoint.sizeBits plugins ∧ Announces plugins params
  asks : ∀ message ∈ state.toClient, ∃ changes, Asks message changes

/-- The server has settled what it knows, and it lags behind the table only until the next check. -/
structure Settled (endpoint : Endpoint) (state : Agreement) : Prop where
  required : state.rechecked = true → ∀ version ∈ state.known,
    version.activity = version.required state.table
  askable : ∀ version ∈ state.known, 0 ∉ version.name ∧ version.hash.length = hashSize
  routed : ∀ name, state.routing.activations name endpoint.cid = true ↔
    ∃ version ∈ state.known, version.name = name ∧ version.activity = true

/-- The last list on its way is the one of the client.
Without a list the server knows the plugins, unless an activation is going to change them. -/
structure Steady (endpoint : Endpoint) (state : Agreement) : Prop where
  channels : Channels endpoint state
  settled : Settled endpoint state
  latest : ∀ params, (announcements state.toServer).getLast? = some params →
    Announces state.plugins params
  quiet : announcements state.toServer = [] → Idle state.plugins state.toClient →
    state.known = state.plugins.map announced

section Steps

variable {endpoint : Endpoint} {state next : Agreement}

variable {plugins : List Plugin} {sizeBits : Nat}

theorem Loadable.typed (loadable : Loadable sizeBits plugins) : ∀ plugin ∈ plugins, Typed plugin :=
  fun plugin member => ⟨(loadable.2.1 plugin member).2.1, (loadable.2.1 plugin member).2.2⟩

theorem handledVersions_announces {params : Bytes} (loadable : Loadable sizeBits plugins)
    (announces : Announces plugins params) :
    handledVersions params = some (plugins.map announced) := by
  rw [announces.params]
  exact handledVersions_describe loadable.typed announces.named loadable.1

theorem announcements_concat (messages : List Bytes) (params : Bytes) :
    announcements (messages ++ [letter 'V' :: params]) = announcements messages ++ [params] := by
  rw [announcements, filterMap_append]
  rfl

/-- A new list goes behind all others. -/
theorem announce_steady (channels : Channels endpoint state) (settled : Settled endpoint state)
    (sent : state.announce endpoint = some next) : Steady endpoint next := by
  have loadable := channels.loadable
  unfold Agreement.announce at sent
  split at sent
  · cases sent
  · next message built =>
      cases sent
      obtain ⟨named, content⟩ := (pluginVersions_eq_ok loadable.typed loadable.2.2).mp built
      have announces : Announces state.plugins message := ⟨named, content⟩
      refine ⟨⟨loadable, fun params member => ?_, channels.asks⟩, ⟨settled.1, settled.2, settled.3⟩,
        fun params last => ?_, fun none => ?_⟩
      · rw [announcements_concat] at member
        rcases mem_append.mp member with old | new
        · exact channels.spoken params old
        · rw [mem_singleton.mp new]
          exact ⟨state.plugins, loadable, announces⟩
      · rw [announcements_concat, List.getLast?_concat] at last
        cases last
        exact announces
      · rw [announcements_concat] at none
        exact absurd none (append_ne_nil_of_right_ne_nil _ (cons_ne_nil _ _))

variable {table : List KnownPlugin} {versions : List Version}

theorem requiredChanges_askable
    (askable : ∀ version ∈ versions, 0 ∉ version.name ∧ version.hash.length = hashSize)
    {change : Change} (member : change ∈ requiredChanges table versions) : Askable change := by
  obtain ⟨version, filtered, rfl⟩ := List.mem_map.mp member
  obtain ⟨name, hash⟩ := askable version (mem_of_mem_filter filtered)
  exact ⟨name, hash⟩

/-- Without changes the server keeps what it knows. -/
theorem settle_eq (none : requiredChanges table versions = []) :
    versions.map (·.settle table) = versions := by
  have same : ∀ version ∈ versions, version.settle table = version := by
    intro version member
    have equal : version.required table = version.activity := by
      by_contra different
      have found : version ∈ versions.filter fun version =>
          version.required table != version.activity :=
        mem_filter.mpr ⟨member, bne_iff_ne.mpr different⟩
      rw [requiredChanges, map_eq_nil_iff] at none
      rw [none] at found
      cases found
    rw [Version.settle, equal]
  calc versions.map (·.settle table) = versions.map id := map_congr_left same
    _ = versions := List.map_id _

/-- A change that is asked for contradicts the plugin that it is about. -/
theorem not_idle {change : Change} (member : change ∈ requiredChanges table (plugins.map announced))
    (agrees : Agrees plugins (asked change)) : False := by
  obtain ⟨version, filtered, rfl⟩ := List.mem_map.mp member
  obtain ⟨found, different⟩ := mem_filter.mp filtered
  obtain ⟨plugin, pluginMember, rfl⟩ := List.mem_map.mp found
  have same := agrees plugin pluginMember rfl rfl
  exact bne_iff_ne.mp different same.symm

/-- The versions are those of the client when nothing else is on its way. -/
theorem check_steady {order : List Change} (channels : Channels endpoint state)
    (latest : ∀ params, (announcements state.toServer).getLast? = some params →
      Announces state.plugins params)
    (current : announcements state.toServer = [] → Idle state.plugins state.toClient →
      versions = state.plugins.map announced)
    (askable : ∀ version ∈ versions, 0 ∉ version.name ∧ version.hash.length = hashSize)
    (routed : ∀ name, state.routing.activations name endpoint.cid = true ↔
      ∃ version ∈ state.known, version.name = name ∧ version.activity = true)
    (checked : state.check endpoint versions order = some next) : Steady endpoint next := by
  unfold Agreement.check at checked
  split at checked
  · next permuted =>
      have perm := isPerm_iff.mp permuted
      obtain ⟨routing, routingChecked, checked⟩ := bind_eq_some_iff.mp checked
      have settled : ∀ toClient, Settled endpoint { state with
          routing := routing
          known := versions.map (·.settle state.table)
          toClient := toClient } := by
        refine fun toClient => ⟨fun _ version member => ?_, fun version member => ?_, fun name => ?_⟩
        · obtain ⟨old, _, rfl⟩ := List.mem_map.mp member
          rfl
        · obtain ⟨old, oldMember, rfl⟩ := List.mem_map.mp member
          exact askable old oldMember
        · rw [checkVersions_activations routed routingChecked]
          simp only [List.mem_map, exists_exists_and_eq_and]
          rfl
      simp only at checked
      split at checked
      · next none =>
          cases checked
          have unchanged : requiredChanges state.table versions = [] := by
            rw [none] at perm
            exact nil_perm.mp perm
          refine ⟨⟨channels.loadable, channels.spoken, channels.asks⟩, settled state.toClient,
            latest, fun silent idle => ?_⟩
          exact (settle_eq unchanged).trans (current silent idle)
      · next some =>
          obtain ⟨message, built, rfl⟩ := map_eq_some_iff.mp checked
          have asks : Asks (letter 'A' :: message) order :=
            ⟨some, fun change member => requiredChanges_askable askable (perm.mem_iff.mp member),
              message, rfl, built⟩
          refine ⟨⟨channels.loadable, channels.spoken, fun other member => ?_⟩, settled _,
            latest, fun silent idle => ?_⟩
          · rcases mem_append.mp member with old | new
            · exact channels.asks other old
            · rw [mem_singleton.mp new]
              exact ⟨order, asks⟩
          · have same := current silent fun other member =>
              idle other (mem_append_left _ member)
            obtain ⟨change, member⟩ := exists_mem_of_ne_nil order some
            have agrees := idle _ (mem_append_right _ mem_cons_self) order asks change
              member
            rw [same] at perm
            exact (not_idle (perm.mem_iff.mp member) agrees).elim
  · cases checked

theorem announcements_cons (type : UInt8) (params : Bytes) (messages : List Bytes) :
    announcements ((type :: params) :: messages) =
      if type = letter 'V' then params :: announcements messages else announcements messages := by
  rw [announcements, filterMap_cons]
  simp only
  by_cases list : type = letter 'V'
  · simp only [if_pos list]
    rfl
  · simp only [if_neg list]
    rfl

theorem getLast?_cons_of_getLast? {A : Type} {items : List A} {first last : A}
    (found : items.getLast? = some last) : (first :: items).getLast? = some last := by
  rw [List.getLast?_cons, found]
  rfl

theorem serverReceives_steady {message : Bytes} {rest : List Bytes} {order : List Change}
    (steady : Steady endpoint state) (first : state.toServer = message :: rest)
    (received : { state with toServer := rest }.serverReceives endpoint message order = some next) :
    Steady endpoint next := by
  match message with
  | [] => cases received
  | type :: params =>
    simp only [Agreement.serverReceives] at received
    have lists := announcements_cons type params rest
    rw [← first] at lists
    split at received
    · next list =>
        rw [if_pos list] at lists
        obtain ⟨versions, handled, checked⟩ := bind_eq_some_iff.mp received
        obtain ⟨plugins, loadable, announces⟩ :=
          steady.channels.spoken params (lists ▸ mem_cons_self)
        have same : versions = plugins.map announced := by
          rw [handledVersions_announces loadable announces] at handled
          exact (Option.some.inj handled).symm
        have channels : Channels endpoint { state with toServer := rest } :=
          ⟨steady.channels.loadable, fun other member =>
            steady.channels.spoken other (lists ▸ mem_cons_of_mem _ member),
            steady.channels.asks⟩
        refine check_steady channels (fun other last => steady.latest other
            (lists ▸ getLast?_cons_of_getLast? last)) (fun silent _ => ?_)
          (fun version member => ?_) steady.settled.routed checked
        · have last : (announcements state.toServer).getLast? = some params := by
            rw [lists]
            change (params :: announcements rest).getLast? = _
            rw [silent]
            rfl
          have latest := handledVersions_announces steady.channels.loadable
            (steady.latest params last)
          rw [latest] at handled
          exact (Option.some.inj handled).symm
        · rw [same] at member
          obtain ⟨plugin, pluginMember, rfl⟩ := List.mem_map.mp member
          exact ⟨(loadable.2.1 plugin pluginMember).1, (loadable.2.1 plugin pluginMember).2.2⟩
    · next other =>
        rw [if_neg other] at lists
        cases received
        exact ⟨⟨steady.channels.loadable, fun other member =>
          steady.channels.spoken other (lists ▸ member), steady.channels.asks⟩,
          ⟨steady.settled.1, steady.settled.2, steady.settled.3⟩,
          fun other last => steady.latest other (lists ▸ last),
          fun silent idle => steady.quiet (lists.trans silent) idle⟩

/-- The size and the name of a plugin do not depend on its activity. -/
theorem loadable_switchPlugins (loadable : Loadable sizeBits plugins)
    (activations : List Core.Activation) :
    Loadable sizeBits (switchPlugins plugins activations).plugins := by
  have names := @map_switchPlugins plugins _ Plugin.name (fun _ _ => rfl) activations
  have sizes := @map_switchPlugins plugins _ Plugin.describedSize (fun _ _ => rfl) activations
  have fields := @map_switchPlugins plugins _
    (fun plugin => (plugin.name, plugin.version, plugin.hash)) (fun _ _ => rfl) activations
  refine ⟨names ▸ loadable.1, fun plugin member => ?_, sizes ▸ loadable.2.2⟩
  have same : (plugin.name, plugin.version, plugin.hash) ∈
      plugins.map fun plugin => (plugin.name, plugin.version, plugin.hash) := by
    rw [← fields]
    exact List.mem_map_of_mem member
  obtain ⟨old, oldMember, equal⟩ := List.mem_map.mp same
  simp only [Prod.mk.injEq] at equal
  rw [← equal.1, ← equal.2.1, ← equal.2.2]
  exact loadable.2.1 old oldMember

theorem announcements_errors (messages : List Bytes) (garbage : Bytes)
    (missing : List Core.Activation) :
    announcements (messages ++ missing.map fun activation =>
      letter 'E' :: activationError activation garbage) = announcements messages := by
  have silent : announcements (missing.map fun activation =>
      letter 'E' :: activationError activation garbage) = [] := by
    rw [announcements, filterMap_eq_nil_iff]
    intro message member
    obtain ⟨activation, _, rfl⟩ := List.mem_map.mp member
    rfl
  calc announcements (messages ++ missing.map fun activation =>
        letter 'E' :: activationError activation garbage)
      = announcements messages ++ announcements (missing.map fun activation =>
        letter 'E' :: activationError activation garbage) := filterMap_append
    _ = announcements messages := by rw [silent, append_nil]

theorem clientReceives_steady {message : Bytes} {rest : List Bytes}
    (steady : Steady endpoint state) (first : state.toClient = message :: rest)
    (received : { state with toClient := rest }.clientReceives endpoint message = some next) :
    Steady endpoint next := by
  obtain ⟨changes, nonempty, askable, params, rfl, built⟩ :=
    steady.channels.asks message (first ▸ mem_cons_self)
  have read := readActivation_activationMessage askable built
  simp only [Agreement.clientReceives, if_true, read, bind_some] at received
  have asks : ∀ other ∈ rest, ∃ changes, Asks other changes :=
    fun other member => steady.channels.asks other (first ▸ mem_cons_of_mem _ member)
  split at received
  · refine announce_steady ?_ ?_ received
    · refine ⟨loadable_switchPlugins steady.channels.loadable _, fun other member => ?_, asks⟩
      rw [announcements_errors] at member
      exact steady.channels.spoken other member
    · exact ⟨steady.settled.1, steady.settled.2, steady.settled.3⟩
  · next unchanged =>
      obtain ⟨same, agree⟩ := switchPlugins_unchanged steady.channels.loadable.1
        (Bool.eq_false_of_not_eq_true unchanged)
      cases received
      refine ⟨⟨?_, fun other member => ?_, asks⟩,
        ⟨steady.settled.1, steady.settled.2, steady.settled.3⟩, fun other last => ?_,
        fun silent idle => ?_⟩
      · simp only [same]
        exact steady.channels.loadable
      · rw [announcements_errors] at member
        exact steady.channels.spoken other member
      · rw [announcements_errors] at last
        simp only [same]
        exact steady.latest other last
      · rw [announcements_errors] at silent
        simp only [same] at idle ⊢
        apply steady.quiet silent
        rw [first]
        intro other member others othersAsked change changeMember
        rcases mem_cons.mp member with here | later
        · subst here
          obtain ⟨_, otherAskable, otherParams, sameParams, otherBuilt⟩ := othersAsked
          cases sameParams
          have again := readActivation_activationMessage otherAskable otherBuilt
          rw [read] at again
          have decoded : changes.map asked = others.map asked :=
            (Prod.mk.inj (Option.some.inj again)).1
          exact agree _ (decoded ▸ List.mem_map_of_mem changeMember)
        · exact idle other later others othersAsked change changeMember

theorem step_steady {event : AgreementEvent} (steady : Steady endpoint state)
    (stepped : state.step endpoint event = some next) : Steady endpoint next := by
  cases event with
  | reload plugins =>
    simp only [Agreement.step] at stepped
    split at stepped
    · next loadable =>
        refine announce_steady ?_ ?_ stepped
        · exact ⟨loadable, steady.channels.spoken, steady.channels.asks⟩
        · exact ⟨steady.settled.1, steady.settled.2, steady.settled.3⟩
    · cases stepped
  | serverReceives order =>
    simp only [Agreement.step] at stepped
    split at stepped
    · cases stepped
    · next message rest first => exact serverReceives_steady steady first stepped
  | clientReceives =>
    simp only [Agreement.step] at stepped
    split at stepped
    · cases stepped
    · next message rest first => exact clientReceives_steady steady first stepped
  | changeTable table =>
    cases stepped
    refine ⟨⟨steady.channels.1, steady.channels.2, steady.channels.3⟩,
      ⟨fun impossible => (by cases impossible), steady.settled.2, steady.settled.3⟩,
      steady.latest, steady.quiet⟩
  | recheck order =>
    have channels : Channels endpoint { state with rechecked := true } :=
      ⟨steady.channels.1, steady.channels.2, steady.channels.3⟩
    exact check_steady channels steady.latest steady.quiet steady.settled.askable
      steady.settled.routed stepped

theorem run_steady {events : List AgreementEvent} (steady : Steady endpoint state)
    (ran : state.run endpoint events = some next) : Steady endpoint next := by
  induction events generalizing state with
  | nil =>
    cases ran
    exact steady
  | cons event events ih =>
    obtain ⟨middle, stepped, ran⟩ := bind_eq_some_iff.mp ran
    exact ih (step_steady steady stepped) ran

end Steps

/-- In a quiet state the table decides about every plugin on both sides. -/
structure Agreed (endpoint : Endpoint) (state : Agreement) : Prop where
  client : ∀ plugin ∈ state.plugins, plugin.active =
    checkVersion state.table plugin.name plugin.version (encodeHex plugin.hash)
  server : ∀ name, state.routing.activations name endpoint.cid = true ↔
    ∃ plugin ∈ state.plugins, plugin.name = name ∧
      checkVersion state.table plugin.name plugin.version (encodeHex plugin.hash) = true

theorem Steady.agreed {endpoint : Endpoint} {state : Agreement} (steady : Steady endpoint state)
    (toServer : state.toServer = []) (toClient : state.toClient = [])
    (rechecked : state.rechecked = true) : Agreed endpoint state := by
  have silent : announcements state.toServer = [] := by
    rw [toServer]
    rfl
  have idle : Idle state.plugins state.toClient := by
    rw [toClient]
    exact fun _ impossible => absurd impossible not_mem_nil
  have known := steady.quiet silent idle
  have client : ∀ plugin ∈ state.plugins, plugin.active =
      checkVersion state.table plugin.name plugin.version (encodeHex plugin.hash) := by
    intro plugin member
    exact steady.settled.required rechecked (announced plugin)
      (known ▸ List.mem_map_of_mem member)
  refine ⟨client, fun name => ?_⟩
  rw [steady.settled.routed, known]
  constructor
  · rintro ⟨version, member, same, active⟩
    obtain ⟨plugin, pluginMember, rfl⟩ := List.mem_map.mp member
    exact ⟨plugin, pluginMember, same, client plugin pluginMember ▸ active⟩
  · rintro ⟨plugin, member, same, required⟩
    exact ⟨announced plugin, List.mem_map_of_mem member, same,
      (client plugin member).trans required⟩

/-- Whenever nothing is on its way and the table was checked, both sides agree with it. -/
theorem activation_agreement {endpoint : Endpoint} {plugins : List Plugin}
    {table : List KnownPlugin} {routing : Plugins} {start state : Agreement}
    {events : List AgreementEvent}
    (inactive : ∀ name, routing.activations name endpoint.cid = false)
    (login : Agreement.login endpoint plugins table routing = some start)
    (ran : start.run endpoint events = some state) (toServer : state.toServer = [])
    (toClient : state.toClient = []) (rechecked : state.rechecked = true) :
    Agreed endpoint state := by
  have steady : Steady endpoint start := by
    unfold Agreement.login at login
    split at login
    · next loadable =>
        refine announce_steady ?_ ?_ login
        · exact ⟨loadable, fun _ impossible => absurd impossible not_mem_nil,
            fun _ impossible => absurd impossible not_mem_nil⟩
        · refine ⟨fun _ _ impossible => absurd impossible not_mem_nil,
            fun _ impossible => absurd impossible not_mem_nil, fun name => ?_⟩
          simp only [inactive, Bool.false_eq_true, not_mem_nil, false_and, exists_false]
    · cases login
  exact (run_steady steady ran).agreed toServer toClient rechecked

def samplePlugin (active : Bool) : Plugin := ⟨[80], 1, List.replicate 16 7, [], active⟩

def sampleChange (active : Bool) : Change := ⟨[80], List.replicate 16 7, active⟩

def sampleEndpoint : Endpoint := ⟨64, 0, [65], [0]⟩

/-- A second list crosses the activation, and later the table forbids the plugin. -/
def crossingEvents : List AgreementEvent :=
  [.serverReceives [sampleChange true], .reload [samplePlugin false], .clientReceives,
    .serverReceives [sampleChange true], .serverReceives [], .clientReceives, .changeTable [],
    .recheck [sampleChange false], .clientReceives, .serverReceives []]

def crossed (events : List AgreementEvent) : Option Agreement :=
  (Agreement.login sampleEndpoint [samplePlugin false] [⟨[80], none, none⟩]
    (Plugins.start [[80]] 0)).bind fun start => start.run sampleEndpoint events

theorem activation_agreement_crossing :
    ∃ state, crossed crossingEvents = some state ∧ state.plugins = [samplePlugin false] ∧
      Agreed sampleEndpoint state := by
  have summary : (crossed crossingEvents).map (fun state =>
      (state.plugins, state.toServer, state.toClient, state.rechecked)) =
        some ([samplePlugin false], [], [], true) := by decide +kernel
  obtain ⟨state, ran, fields⟩ := map_eq_some_iff.mp summary
  simp only [Prod.mk.injEq] at fields
  obtain ⟨start, login, run⟩ := bind_eq_some_iff.mp ran
  exact ⟨state, ran, fields.1, activation_agreement (fun _ => rfl) login run fields.2.1
    fields.2.2.1 fields.2.2.2⟩

end Ucollect.Activation
