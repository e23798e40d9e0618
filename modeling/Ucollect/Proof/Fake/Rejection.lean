import Ucollect.Construction.Fake.Connections

namespace Ucollect.Fake
open Library List Option

section Descriptors

/-- Each number is open once, and the registered ones are among them. -/
structure Sockets.Sound (sockets : Sockets) : Prop where
  distinct : (sockets.opened.map Prod.fst).Nodup
  once : sockets.registered.Nodup
  watched : ∀ fd ∈ sockets.registered, fd ∈ sockets.opened.map Prod.fst

variable {sockets : Sockets}

theorem lowest_free (sockets : Sockets) : sockets.lowest ∉ sockets.opened.map Prod.fst := by
  unfold Sockets.lowest
  cases found : (List.range (sockets.opened.length + 1)).find? fun number =>
      !(sockets.opened.map Prod.fst).contains number with
  | some number =>
    have free := List.find?_some found
    simpa using free
  | none =>
    have taken : List.range (sockets.opened.length + 1) ⊆ sockets.opened.map Prod.fst := by
      intro number member
      have used := List.find?_eq_none.mp found number member
      simpa using used
    have short := (subperm_of_subset nodup_range taken).length_le
    rw [length_range, length_map] at short
    omega

theorem Sockets.Sound.lowest_unwatched (sound : sockets.Sound) :
    sockets.lowest ∉ sockets.registered :=
  fun member => lowest_free sockets (sound.watched _ member)

theorem Sockets.Sound.create (sound : sockets.Sound) : sockets.create.Sound where
  distinct := by
    have distinct := sound.distinct.concat (lowest_free sockets)
    rw [concat_eq_append] at distinct
    rw [Sockets.create, map_append]
    exact distinct
  once := by
    have once := sound.once.concat sound.lowest_unwatched
    rwa [concat_eq_append] at once
  watched fd member := by
    rw [Sockets.create, map_append, map_singleton]
    rcases mem_append.mp member with before | new
    · exact mem_append_left _ (sound.watched fd before)
    · exact mem_append_right _ new

/-- A new socket that is released at once leaves a trace only in the list of closed sockets. -/
theorem create_release (sound : sockets.Sound) : sockets.create.release sockets.lowest =
    { sockets with next := sockets.next + 1, closed := sockets.closed ++ [sockets.next] } := by
  have absent : ∀ entry ∈ sockets.opened, ¬ (entry.1 == sockets.lowest) = true := by
    intro entry member same
    apply lowest_free sockets
    rw [← of_decide_eq_true same]
    exact List.mem_map_of_mem member
  have opened : (sockets.opened ++ [(sockets.lowest, sockets.next)]).eraseP
      (fun entry => entry.1 == sockets.lowest) = sockets.opened := by
    rw [eraseP_append_right _ absent]
    simp
  have registered : (sockets.registered ++ [sockets.lowest]).erase sockets.lowest =
      sockets.registered := by
    rw [erase_append_right _ sound.lowest_unwatched]
    simp
  have found : (sockets.opened ++ [(sockets.lowest, sockets.next)]).find?
      (fun entry => entry.1 == sockets.lowest) = some (sockets.lowest, sockets.next) := by
    rw [List.find?_append, List.find?_eq_none.mpr absent]
    simp
  rw [Sockets.release, Sockets.create]
  simp only [opened, registered, found]
  rfl

/-- The new sockets of a round are open, registered, and known by their numbers. -/
structure Sockets.Extends (before after : Sockets) (news : List (Nat × Nat)) : Prop where
  opened : after.opened = before.opened ++ news
  registered : after.registered = before.registered ++ news.map Prod.fst
  ghosts : ∃ failed, after.closed = before.closed ++ failed ∧
    (news.map Prod.snd ++ failed).Perm (List.range' before.next (after.next - before.next))
  order : before.next ≤ after.next
  sound : after.Sound

theorem extends_refl (sound : sockets.Sound) : sockets.Extends sockets [] where
  opened := (append_nil _).symm
  registered := (append_nil _).symm
  ghosts := ⟨[], (append_nil _).symm, by simp⟩
  order := Nat.le_refl _
  sound

theorem extends_create (sound : sockets.Sound) :
    sockets.Extends sockets.create [(sockets.lowest, sockets.next)] where
  opened := rfl
  registered := rfl
  ghosts := ⟨[], (append_nil _).symm, by simp [Sockets.create]⟩
  order := Nat.le_succ _
  sound := sound.create

theorem extends_failed (sound : sockets.Sound) :
    sockets.Extends (sockets.create.release sockets.lowest) [] := by
  rw [create_release sound]
  exact {
    opened := (append_nil _).symm
    registered := (append_nil _).symm
    ghosts := ⟨[sockets.next], rfl, by simp⟩
    order := Nat.le_succ _
    sound := ⟨sound.distinct, sound.once, sound.watched⟩ }

theorem Sockets.Extends.trans {first second third : Sockets} {news more : List (Nat × Nat)}
    (one : first.Extends second news) (two : second.Extends third more) :
    first.Extends third (news ++ more) where
  opened := by rw [two.opened, one.opened, append_assoc]
  registered := by rw [two.registered, one.registered, map_append, append_assoc]
  ghosts := by
    obtain ⟨failed, closed, perm⟩ := one.ghosts
    obtain ⟨later, closedLater, permLater⟩ := two.ghosts
    refine ⟨failed ++ later, by rw [closedLater, closed, append_assoc], ?_⟩
    have orderOne := one.order
    have orderTwo := two.order
    have split : List.range' first.next (third.next - first.next) =
        List.range' first.next (second.next - first.next) ++
          List.range' second.next (third.next - second.next) := by
      have joined : List.range' first.next (second.next - first.next) ++
          List.range' (first.next + (second.next - first.next)) (third.next - second.next) =
          List.range' first.next (second.next - first.next + (third.next - second.next)) :=
        List.range'_append_1
      rw [show first.next + (second.next - first.next) = second.next by omega] at joined
      rw [joined]
      congr 1
      omega
    rw [split, map_append]
    refine List.Perm.trans ?_ (perm.append permLater)
    rw [append_assoc, append_assoc]
    apply Perm.append_left
    rw [← append_assoc, ← append_assoc]
    exact Perm.append_right _ perm_append_comm
  order := one.order.trans two.order
  sound := two.sound

/-- Releasing the new sockets in their order leaves the old ones. -/
theorem release_news {opened : List (Nat × Nat)} {registered : List Nat} (news : List (Nat × Nat))
    (fresh : ∀ fd ∈ news.map Prod.fst, fd ∉ opened.map Prod.fst ∧ fd ∉ registered)
    (next : Nat) (closed : List Nat) :
    (news.map Prod.fst).foldl Sockets.release
        ⟨opened ++ news, registered ++ news.map Prod.fst, next, closed⟩ =
      ⟨opened, registered, next, closed ++ news.map Prod.snd⟩ := by
  induction news generalizing closed with
  | nil => simp
  | cons entry news hypothesis =>
    obtain ⟨numberFresh, unwatched⟩ := fresh entry.1 mem_cons_self
    have absent : ∀ other ∈ opened, ¬ (other.1 == entry.1) = true := by
      intro other member same
      apply numberFresh
      rw [← of_decide_eq_true same]
      exact List.mem_map_of_mem member
    have found : (opened ++ entry :: news).find? (fun other => other.1 == entry.1) = some entry := by
      rw [List.find?_append, List.find?_eq_none.mpr absent]
      simp
    have released : Sockets.release ⟨opened ++ entry :: news,
        registered ++ entry.1 :: news.map Prod.fst, next, closed⟩ entry.1 =
        ⟨opened ++ news, registered ++ news.map Prod.fst, next, closed ++ [entry.2]⟩ := by
      rw [Sockets.release, eraseP_append_right _ absent, erase_append_right _ unwatched, found]
      simp
    rw [map_cons, foldl_cons, released,
      hypothesis fun fd member => fresh fd (mem_cons_of_mem _ member)]
    simp

theorem Sockets.Extends.fresh {before after : Sockets} {news : List (Nat × Nat)}
    (extends_ : before.Extends after news) :
    ∀ fd ∈ news.map Prod.fst, fd ∉ before.opened.map Prod.fst ∧ fd ∉ before.registered := by
  intro fd member
  have distinct := extends_.sound.distinct
  have once := extends_.sound.once
  rw [extends_.opened, map_append] at distinct
  rw [extends_.registered] at once
  exact ⟨fun old => (disjoint_of_nodup_append distinct) old member,
    fun old => (disjoint_of_nodup_append once) old member⟩

/-- A released number is not registered any more. -/
theorem foldl_release_unwatched (fds : List Nat) {fd : Nat} {sockets : Sockets}
    (once : sockets.registered.Nodup) (gone : fd ∉ sockets.registered ∨ fd ∈ fds) :
    fd ∉ (fds.foldl Sockets.release sockets).registered := by
  induction fds generalizing sockets with
  | nil =>
    rcases gone with gone | member
    · exact gone
    · cases member
  | cons first fds hypothesis =>
    rw [foldl_cons]
    have kept : (sockets.release first).registered.Nodup := once.erase first
    apply hypothesis kept
    rcases gone with gone | member
    · exact .inl fun inside => gone (mem_of_mem_erase inside)
    · rcases mem_cons.mp member with rfl | later
      · exact .inl once.not_mem_erase
      · exact .inr later

end Descriptors

section Rounds

variable {options : Options}

def keepsPort (options : Options) (server : Server) : Prop :=
  wantedPort options server = some server.port ∧ server.fd ≠ none

/-- The check goes on after the server. -/
def passes (options : Options) (answer : Answer) (server : Server) : Prop :=
  ∃ port, wantedPort options server = some port ∧
    (keepsPort options server ∨ port = 0 ∨
      answer.socket = true ∧ (answer.bind = true → answer.listen = true))

/-- No server that the check reaches keeps its socket. -/
def NoneKept (options : Options) (answers : Nat → Answer) : Nat → List Server → Prop
  | _, [] => True
  | index, server :: servers =>
    ¬ keepsPort options server ∧
      (passes options (answers index) server → NoneKept options answers (index + 1) servers)

/-- Between two rounds there are no candidates, and the running sockets are registered. -/
structure AtRest (servers : List Server) (sockets : Sockets) : Prop where
  candidates : ∀ server ∈ servers, server.candidate = none
  running : ∀ server ∈ servers, ∀ fd, server.fd = some fd → fd ∈ sockets.registered

variable {sockets : Sockets}

variable {server : Server}

theorem configServer_kept (answer : Answer) (keeps : keepsPort options server) :
    configServer options answer server sockets =
      ({ server with candidate := server.fd, portCandidate := server.port }, sockets, .done) := by
  rw [configServer, keeps.1]
  exact if_pos ⟨rfl, keeps.2⟩

/-- A server that keeps nothing opens at most one socket, which is its candidate. -/
theorem configServer_new (sound : sockets.Sound) (answer : Answer) (rest : server.candidate = none)
    (new : ¬ keepsPort options server) :
    ∃ next after turn news, configServer options answer server sockets = (next, after, turn) ∧
      sockets.Extends after news ∧ next.candidate.toList = news.map Prod.fst ∧
      (next.fd, next.port) = (server.fd, server.port) ∧
      (turn ≠ .failed ↔ passes options answer server) := by
  cases wanted : wantedPort options server with
  | none =>
    refine ⟨server, sockets, .failed, [], by simp [configServer, wanted], extends_refl sound,
      by simp [rest], rfl, ?_⟩
    simp [passes, wanted]
  | some port =>
    have other : ¬ (port = server.port ∧ server.fd ≠ none) := by
      rintro ⟨rfl, running⟩
      exact new ⟨wanted, running⟩
    simp only [configServer, wanted, if_neg other]
    by_cases zero : port = 0
    · refine ⟨_, _, _, [], if_neg (not_not.mpr zero), extends_refl sound, by simp [rest], rfl, ?_⟩
      simp [passes, wanted, zero]
    · rw [if_pos zero]
      obtain ⟨socket, bind, listen⟩ := answer
      cases socket with
      | false =>
        refine ⟨_, _, _, [], rfl, extends_refl sound, by simp [rest], rfl, ?_⟩
        simp [passes, wanted, zero, new]
      | true =>
        cases bind with
        | false =>
          refine ⟨_, _, _, [], rfl, extends_failed sound, rfl, rfl, ?_⟩
          simp [passes, wanted]
        | true =>
          cases listen with
          | false =>
            refine ⟨_, _, _, [], rfl, extends_failed sound, by simp [rest], rfl, ?_⟩
            simp [passes, wanted, zero, new]
          | true =>
            refine ⟨_, _, _, _, rfl, extends_create sound, rfl, rfl, ?_⟩
            simp [passes, wanted]

variable {servers : List Server}

theorem AtRest.tail (rest : AtRest (server :: servers) sockets) {after : Sockets}
    {news : List (Nat × Nat)} (extends_ : sockets.Extends after news) :
    AtRest servers after where
  candidates other member := rest.candidates other (mem_cons_of_mem _ member)
  running other member fd same := by
    rw [extends_.registered]
    exact mem_append_left _ (rest.running other (mem_cons_of_mem _ member) fd same)

def allCandidates (servers : List Server) : List Nat :=
  servers.flatMap fun server => server.candidate.toList

theorem allCandidates_rest (rest : ∀ server ∈ servers, server.candidate = none) :
    allCandidates servers = [] := by
  apply flatMap_eq_nil_iff.mpr
  intro server member
  rw [rest server member]
  rfl

/-- The descriptors and ports of the servers do not change during the check. -/
def Steady (before after : List Server) : Prop :=
  after.map (fun server => (server.fd, server.port)) =
    before.map fun server => (server.fd, server.port)

/-- Without a kept server the candidates are the new sockets. -/
theorem configServers_new (answers : Nat → Answer) {index : Nat} (sound : sockets.Sound)
    (rest : AtRest servers sockets) (none_ : NoneKept options answers index servers) :
    ∃ next after ended retry news,
      configServers options answers index servers sockets = (next, after, ended, retry) ∧
      sockets.Extends after news ∧ allCandidates next = news.map Prod.fst ∧
      Steady servers next := by
  induction servers generalizing index sockets with
  | nil => exact ⟨[], sockets, true, false, [], rfl, extends_refl sound, rfl, rfl⟩
  | cons server servers hypothesis =>
    obtain ⟨new, later⟩ := none_
    obtain ⟨next, after, turn, news, configured, extends_, candidate, same, reached⟩ :=
      configServer_new sound (answers index) (rest.candidates server mem_cons_self) new
    have tail := rest.tail extends_
    rw [configServers, configured]
    by_cases failed : turn = .failed
    · subst failed
      refine ⟨_, _, _, _, news, rfl, extends_, ?_, ?_⟩
      · rw [allCandidates, flatMap_cons, candidate]
        have nothing := allCandidates_rest tail.candidates
        rw [allCandidates] at nothing
        rw [nothing, append_nil]
      · simp only [Steady, map_cons, same]
    · obtain ⟨others, final, ended, retry, more, rest_, extended, candidates, steady⟩ :=
        hypothesis extends_.sound tail (later (reached.mp failed))
      have steady' : Steady (server :: servers) (next :: others) := by
        simp only [Steady, map_cons, same]
        rw [steady]
      have all : allCandidates (next :: others) = (news ++ more).map Prod.fst := by
        rw [allCandidates, flatMap_cons, candidate, map_append]
        rw [allCandidates] at candidates
        rw [candidates]
      cases turn with
      | failed => exact absurd rfl failed
      | retry =>
        simp only [rest_]
        exact ⟨_, _, _, _, _, rfl, extends_.trans extended, all, steady'⟩
      | done =>
        simp only [rest_]
        exact ⟨_, _, _, _, _, rfl, extends_.trans extended, all, steady'⟩

/-- Every round only adds sockets. -/
theorem configServer_extends (options : Options) (sound : sockets.Sound) (answer : Answer)
    (rest : server.candidate = none) :
    ∃ next after turn news, configServer options answer server sockets = (next, after, turn) ∧
      sockets.Extends after news := by
  by_cases keeps : keepsPort options server
  · exact ⟨_, _, _, [], configServer_kept answer keeps, extends_refl sound⟩
  · obtain ⟨next, after, turn, news, configured, extends_, -⟩ :=
      configServer_new sound answer rest keeps
    exact ⟨next, after, turn, news, configured, extends_⟩

theorem configServers_extends (options : Options) (answers : Nat → Answer) (index : Nat)
    (sound : sockets.Sound) (rest : AtRest servers sockets) :
    ∃ next after ended retry news,
      configServers options answers index servers sockets = (next, after, ended, retry) ∧
      sockets.Extends after news := by
  induction servers generalizing index sockets with
  | nil => exact ⟨[], sockets, true, false, [], rfl, extends_refl sound⟩
  | cons server servers hypothesis =>
    obtain ⟨next, after, turn, news, configured, extends_⟩ :=
      configServer_extends options sound (answers index)
        (rest.candidates server mem_cons_self)
    obtain ⟨others, final, ended, retry, more, others_, extended⟩ :=
      hypothesis (index + 1) extends_.sound (rest.tail extends_)
    rw [configServers, configured]
    cases turn with
    | failed => exact ⟨_, _, _, _, _, rfl, extends_⟩
    | retry =>
      simp only [others_]
      exact ⟨_, _, _, _, _, rfl, extends_.trans extended⟩
    | done =>
      simp only [others_]
      exact ⟨_, _, _, _, _, rfl, extends_.trans extended⟩

/-- A kept server has its own socket as the candidate. -/
theorem configServers_kept (answers : Nat → Answer) {index : Nat} (sound : sockets.Sound)
    (rest : AtRest servers sockets) (kept : ¬ NoneKept options answers index servers) :
    ∃ next after ended retry,
      configServers options answers index servers sockets = (next, after, ended, retry) ∧
      after.Sound ∧ ∃ server ∈ servers, ∃ fd, server.fd = some fd ∧ fd ∈ allCandidates next := by
  induction servers generalizing index sockets with
  | nil => exact absurd trivial kept
  | cons server servers hypothesis =>
    rw [configServers]
    by_cases keeps : keepsPort options server
    · obtain ⟨fd, running⟩ := ne_none_iff_exists'.mp keeps.2
      obtain ⟨others, final, ended, retry, more, others_, extended⟩ :=
        configServers_extends options answers (index + 1) sound
          (rest.tail (extends_refl sound))
      simp only [configServer_kept (answers index) keeps, others_]
      refine ⟨_, _, _, _, rfl, extended.sound, server, mem_cons_self, fd, running, ?_⟩
      simp [allCandidates, running]
    · obtain ⟨next, after, turn, news, configured, extends_, -, -, reached⟩ :=
        configServer_new sound (answers index) (rest.candidates server mem_cons_self) keeps
      have both : passes options (answers index) server ∧
          ¬ NoneKept options answers (index + 1) servers := by
        rw [NoneKept] at kept
        exact Classical.not_imp.mp fun later => kept ⟨keeps, later⟩
      obtain ⟨others, final, ended, retry, others_, sound', other, member, fd, running, inside⟩ :=
        hypothesis extends_.sound (rest.tail extends_) both.2
      have candidate : fd ∈ allCandidates (next :: others) := by
        rw [allCandidates, flatMap_cons]
        exact mem_append_right _ inside
      rw [configured]
      cases turn with
      | failed => exact absurd rfl (reached.mpr both.1)
      | retry =>
        simp only [others_]
        exact ⟨_, _, _, _, rfl, sound', other, mem_cons_of_mem _ member, fd, running,
          candidate⟩
      | done =>
        simp only [others_]
        exact ⟨_, _, _, _, rfl, sound', other, mem_cons_of_mem _ member, fd, running,
          candidate⟩

/-- A rejection releases every candidate. -/
theorem finishServers_rejected (servers : List Server) (sockets : Sockets) :
    finishServers false servers sockets =
      (servers.map fun server => { server with portCandidate := 0, candidate := none },
        (allCandidates servers).foldl Sockets.release sockets) := by
  induction servers generalizing sockets with
  | nil => rfl
  | cons server servers hypothesis =>
    rw [finishServers, finishServer]
    cases candidate : server.candidate with
    | none => simp [hypothesis, allCandidates, candidate]
    | some fd => simp [hypothesis, allCandidates, candidate]

end Rounds

section Rejections

/-- The servers are as before, and each socket of the rejected round is closed once. -/
structure Restored (before after : Plugin) : Prop where
  same : Steady before.servers after.servers
  running : ∀ server ∈ before.servers, ∀ fd, server.fd = some fd →
    fd ∈ after.sockets.registered ∧
      ∀ socket, (fd, socket) ∈ after.sockets.opened ↔ (fd, socket) ∈ before.sockets.opened
  opened : after.sockets.opened ⊆ before.sockets.opened
  registered : after.sockets.registered ⊆ before.sockets.registered
  once : ∀ socket, before.sockets.next ≤ socket → socket < after.sockets.next →
    after.sockets.closed.count socket = before.sockets.closed.count socket + 1

variable {options : Options} {answers : Nat → Answer} {plugin : Plugin}

theorem configInternal_round {servers : List Server} {sockets : Sockets} {ended retry : Bool}
    (configured : configServers options answers 0 plugin.servers plugin.sockets =
      (servers, sockets, ended, retry)) :
    (configInternal options answers plugin).1.servers = servers ∧
      (configInternal options answers plugin).1.sockets = sockets := by
  rw [configInternal, configured]
  simp only
  split
  · exact ⟨rfl, rfl⟩
  · split
    · exact ⟨rfl, rfl⟩
    · split <;> exact ⟨rfl, rfl⟩

theorem configFinish_rejected (plugin : Plugin) :
    (configFinish false plugin).servers = plugin.servers.map (fun server =>
        { server with portCandidate := 0, candidate := none }) ∧
      (configFinish false plugin).sockets =
        (allCandidates plugin.servers).foldl Sockets.release plugin.sockets := by
  rw [configFinish, finishServers_rejected]
  exact ⟨rfl, rfl⟩

theorem rejected_new (sound : plugin.sockets.Sound) (rest : AtRest plugin.servers plugin.sockets)
    (none_ : NoneKept options answers 0 plugin.servers) :
    Restored plugin (configFinish false (configInternal options answers plugin).1) := by
  obtain ⟨next, after, ended, retry, news, configured, extends_, candidates, steady⟩ :=
    configServers_new answers sound rest none_
  obtain ⟨servers, sockets⟩ := configInternal_round configured
  obtain ⟨finished, released⟩ := configFinish_rejected (configInternal options answers plugin).1
  rw [servers] at finished released
  obtain ⟨failed, closed, perm⟩ := extends_.ghosts
  have back : (configFinish false (configInternal options answers plugin).1).sockets =
      ⟨plugin.sockets.opened, plugin.sockets.registered, after.next,
        after.closed ++ news.map Prod.snd⟩ := by
    rw [released, sockets, candidates, ← release_news news extends_.fresh, ← extends_.opened,
      ← extends_.registered]
  exact {
    same := by
      rw [Steady, finished, List.map_map]
      exact steady
    running := by
      intro server member fd same
      rw [back]
      exact ⟨rest.running server member fd same, fun socket => Iff.rfl⟩
    opened := by rw [back]; exact List.Subset.refl _
    registered := by rw [back]; exact List.Subset.refl _
    once := by
      intro socket low high
      rw [back] at high ⊢
      have both := perm.count_eq socket
      rw [count_append] at both
      have inside : (List.range' plugin.sockets.next
          (after.next - plugin.sockets.next)).count socket = 1 := by
        apply count_eq_one_of_mem nodup_range'
        rw [mem_range'_1]
        have order := extends_.order
        simp only at high
        omega
      simp only [closed, count_append]
      omega }

theorem rejected_kept (sound : plugin.sockets.Sound) (rest : AtRest plugin.servers plugin.sockets)
    (kept : ¬ NoneKept options answers 0 plugin.servers) :
    ¬ Restored plugin (configFinish false (configInternal options answers plugin).1) := by
  obtain ⟨next, after, ended, retry, configured, soundAfter, server, member, fd, running, inside⟩ :=
    configServers_kept answers sound rest kept
  obtain ⟨servers, sockets⟩ := configInternal_round configured
  intro restored
  have registered := (restored.running server member fd running).1
  rw [(configFinish_rejected _).2, servers, sockets] at registered
  exact foldl_release_unwatched _ soundAfter.once (.inr inside) registered

theorem rejected_restored (sound : plugin.sockets.Sound)
    (rest : AtRest plugin.servers plugin.sockets) :
    Restored plugin (configFinish false (configInternal options answers plugin).1) ↔
      NoneKept options answers 0 plugin.servers := by
  constructor
  · intro restored
    by_contra kept
    exact rejected_kept sound rest kept restored
  · exact rejected_new sound rest

theorem restored_congr (before other : Plugin) {after : Plugin}
    (servers : before.servers = other.servers) (sockets : before.sockets = other.sockets) :
    Restored before after ↔ Restored other after := by
  constructor
  · rintro ⟨same, running, opened, registered, once⟩
    rw [servers] at same running
    rw [sockets] at running opened registered once
    exact ⟨same, running, opened, registered, once⟩
  · rintro ⟨same, running, opened, registered, once⟩
    rw [← servers] at same running
    rw [← sockets] at running opened registered once
    exact ⟨same, running, opened, registered, once⟩

theorem config_rejected (sound : plugin.sockets.Sound)
    (rest : AtRest plugin.servers plugin.sockets) :
    Restored plugin (configFinish false (config options answers plugin).1) ↔
      NoneKept options answers 0 plugin.servers := by
  rw [config, restored_congr plugin { plugin with allowRetries := configRetryCount } rfl rfl]
  exact rejected_restored sound rest

/-- A rejected configuration is undone exactly when it has no server that keeps its socket. -/
theorem rejection_restores (options : Options) (answers : Nat → Answer) (plugin : Plugin)
    (sound : plugin.sockets.Sound) (rest : AtRest plugin.servers plugin.sockets) :
    (Restored plugin (configFinish false (config options answers plugin).1) ↔
      NoneKept options answers 0 plugin.servers) ∧
    ((configInternal options answers { plugin with configRetryScheduled := false }).2 = false →
      (Restored plugin (configRetryNow options answers plugin) ↔
        NoneKept options answers 0 plugin.servers)) := by
  refine ⟨config_rejected sound rest, fun failed => ?_⟩
  have same : configRetryNow options answers plugin = configFinish false
      (configInternal options answers { plugin with configRetryScheduled := false }).1 := by
    rw [configRetryNow]
    generalize configInternal options answers { plugin with configRetryScheduled := false } =
      result at failed
    obtain ⟨next, success⟩ := result
    cases failed
    rfl
  rw [same, restored_congr plugin { plugin with configRetryScheduled := false } rfl rfl]
  exact rejected_restored sound rest

/-- The server listens on its default port. -/
def telnetRunning : Plugin where
  servers := [⟨"telnet", 23, some 3, none, 23, 0⟩]
  sockets := ⟨[(3, 0)], [3], 1, []⟩
  logCredentials := false
  logCredentialsCandidate := false
  configRetryScheduled := false
  allowRetries := 0

theorem telnetRunning_sound : telnetRunning.sockets.Sound where
  distinct := by decide
  once := by decide
  watched := by decide

theorem telnetRunning_rest : AtRest telnetRunning.servers telnetRunning.sockets where
  candidates := by decide
  running := by
    intro server member fd same
    rw [mem_singleton.mp member] at same
    cases same
    decide

/-- The server gets another port, and the credentials have no value. -/
def movedValueless : Options := fun name =>
  if name = "telnet_port" then some [[letter '2', letter '3', letter '2', letter '4']]
  else if name = "log_credentials" then some []
  else none

/-- The check opens a socket for the new port before it fails, in the first round and in a retry. -/
theorem rejection_restores_moved :
    (config movedValueless (fun _ => ⟨true, true, true⟩) telnetRunning).1.sockets.opened =
      [(3, 0), (0, 1)] ∧
    Restored telnetRunning (configFinish false
      (config movedValueless (fun _ => ⟨true, true, true⟩) telnetRunning).1) ∧
    Restored telnetRunning
      (configRetryNow movedValueless (fun _ => ⟨true, true, true⟩) telnetRunning) := by
  obtain ⟨rejected, retried⟩ := rejection_restores movedValueless (fun _ => ⟨true, true, true⟩)
    telnetRunning telnetRunning_sound telnetRunning_rest
  have moved : NoneKept movedValueless (fun _ => ⟨true, true, true⟩) 0 telnetRunning.servers :=
    ⟨fun keeps => absurd keeps.1 (by decide), fun _ => trivial⟩
  exact ⟨by decide, rejected.mpr moved, (retried (by decide)).mpr moved⟩

/-- The credentials have no value, and the server loses the socket that it was to keep. -/
def valueless : Options := fun name => if name = "log_credentials" then some [] else none

theorem kept_socket_lost :
    (config valueless (fun _ => ⟨true, true, true⟩) telnetRunning).2 = false ∧
      ¬ Restored telnetRunning (configFinish false
        (config valueless (fun _ => ⟨true, true, true⟩) telnetRunning).1) := by
  refine ⟨by decide, ?_⟩
  rw [config_rejected telnetRunning_sound telnetRunning_rest]
  rintro ⟨new, -⟩
  exact new ⟨by decide, by decide⟩

end Rejections

end Ucollect.Fake
