import Ucollect.Proof.Login.Authenticator

namespace Ucollect.Master
open Library List Option

/-- The authenticator has allowed this identifier. -/
def Session.Allowed (session : Session) (cid : Bytes) : Prop :=
  Record.answered cid true ∈ session.trace

/-- Every action under an identifier follows an answer that allows the identifier. -/
def AllowedBefore (trace : List Record) : Prop :=
  ∀ before record after, trace = before ++ record :: after →
    ∀ cid, record.actsUnder = some cid → Record.answered cid true ∈ before

/-- The invariant ties the identifier to the answers of the authenticator. -/
structure Sound (session : Session) : Prop where
  identity : session.conn.authenticated = true → session.conn.waitAuth = false →
    ∃ cid, session.conn.ownCid = some cid ∧ session.Allowed cid
  named : ∀ cid, session.Allowed cid → cid ≠ []
  loggedIn : session.conn.loggedIn = true →
    session.conn.authenticated = true ∧ session.conn.waitAuth = false
  waiting : session.conn.waitAuth = true →
    ∃ cid, session.conn.ownCid = some cid ∧ session.pending = [cid]
  idle : session.conn.waitAuth = false → session.pending = []
  traced : AllowedBefore session.trace

/-- This is the message that the event hands to `stringReceived`. -/
def Session.handed (session : Session) : Event → Option Bytes
  | .message string _ => some string
  | .replay _ => session.replaying.bind fun position => (session.conn.authBuffer.getD [])[position]?
  | _ => none

/-- A repeated login asks the authenticator or names an identifier that is allowed. -/
def Session.KeepsIdentity (session : Session) (string : Bytes) : Prop :=
  session.conn.waitAuth = false → session.conn.loggedIn = false →
    session.conn.authenticated = true → ∀ login ∈ loginOf string,
      login.Asks session.conn ∨ session.Allowed login.storedCid

/-- The authenticator allows no empty identifier and denies no repeated login under a new one. -/
def Session.AnswersInOrder (session : Session) (cid : Bytes) (allowed : Bool) : Prop :=
  if allowed then cid ≠ []
  else session.conn.authenticated = true → session.Allowed cid

/-- The step does not leave an authenticated connection under a new identifier. -/
def Session.Orderly (session : Session) : Event → Prop
  | .answer position allowed =>
    ∀ cid ∈ session.pending[position]?, session.AnswersInOrder cid allowed
  | event => ∀ string ∈ session.handed event, session.KeepsIdentity string

/-- Every step of the run is orderly. -/
def Session.OrderlyRun (session : Session) : List Event → Prop
  | [] => True
  | event :: events => session.Orderly event ∧
      ∀ next ∈ session.step event, next.OrderlyRun events

instance (session : Session) (cid : Bytes) : Decidable (session.Allowed cid) :=
  inferInstanceAs (Decidable (_ ∈ _))

instance (session : Session) (string : Bytes) : Decidable (session.KeepsIdentity string) :=
  inferInstanceAs (Decidable (_ → _ → _ → _))

instance (session : Session) (cid : Bytes) (allowed : Bool) :
    Decidable (session.AnswersInOrder cid allowed) :=
  inferInstanceAs (Decidable (if allowed then _ else _ → _))

instance Session.decidableOrderly (session : Session) : (event : Event) →
    Decidable (session.Orderly event)
  | .answer _ _ => inferInstanceAs (Decidable (∀ _ ∈ _, _))
  | .message _ _ | .replay _ | .connectionLost | .checkLogged | .ping =>
    inferInstanceAs (Decidable (∀ _ ∈ _, _))

instance Session.decidableOrderlyRun (session : Session) : (events : List Event) →
    Decidable (session.OrderlyRun events)
  | [] => inferInstanceAs (Decidable True)
  | event :: events =>
    have : ∀ next : Session, Decidable (next.OrderlyRun events) := fun next =>
      next.decidableOrderlyRun events
    inferInstanceAs (Decidable (session.Orderly event ∧ ∀ next ∈ session.step event, _))

theorem AllowedBefore.append {trace records : List Record} (traced : AllowedBefore trace)
    (acts : ∀ record ∈ records, ∀ cid, record.actsUnder = some cid →
      Record.answered cid true ∈ trace) : AllowedBefore (trace ++ records) := by
  intro before record after split cid under
  rcases append_eq_append_iff.mp split with ⟨more, rfl, later⟩ | ⟨more, same, rest⟩
  · apply mem_append_left
    exact acts record (by rw [later]; simp) cid under
  · cases more with
    | nil =>
      rw [append_nil] at same
      rw [nil_append] at rest
      rw [← same]
      exact acts record (by rw [← rest]; exact mem_cons_self) cid under
    | cons first more =>
      obtain ⟨rfl, rfl⟩ := List.cons.inj rest
      exact traced before record more same cid under

variable {session : Session}

/-- The identifier of a session is the one that the authenticator allowed. -/
theorem Sound.cid_allowed (sound : Sound session) (idle : session.conn.waitAuth = false)
    (session_ : session.conn.authenticated = true ∨ session.conn.loggedIn = true) :
    session.Allowed session.conn.cid := by
  have authenticated : session.conn.authenticated = true := by
    rcases session_ with authenticated | loggedIn
    · exact authenticated
    · exact (sound.loggedIn loggedIn).1
  obtain ⟨cid, own, allowed⟩ := sound.identity authenticated idle
  rw [ClientConn.cid, own]
  simp only [sound.named cid allowed, if_false]
  exact allowed

variable {records : List Record}

theorem Sound.acts (sound : Sound session) (acts : ActsFor session.conn records) :
    ∀ record ∈ records, ∀ cid, record.actsUnder = some cid → session.Allowed cid := by
  intro record member cid under
  obtain ⟨rfl, idle, session_⟩ := acts.acts record member cid under
  exact sound.cid_allowed idle session_

/-- Records without an answer allow no new identifier. -/
theorem allowed_append_iff (cid : Bytes)
    (unanswered : ∀ cid allowed, Record.answered cid allowed ∉ records) :
    Record.answered cid true ∈ session.trace ++ records ↔ session.Allowed cid := by
  rw [mem_append]
  exact ⟨fun found => found.resolve_right (unanswered cid true), Or.inl⟩

section

variable (sound : Sound session)
include sound

/-- The new login fields only have to fit the answers that exist already. -/
theorem Sound.apply {after : ClientConn} {raised : Bool}
    (unanswered : ∀ cid allowed, Record.answered cid allowed ∉ records)
    (acts : ∀ record ∈ records, ∀ cid, record.actsUnder = some cid → session.Allowed cid)
    (identity : after.authenticated = true → after.waitAuth = false →
      ∃ cid, after.ownCid = some cid ∧ session.Allowed cid)
    (loggedIn : after.loggedIn = true → after.authenticated = true ∧ after.waitAuth = false)
    (waiting : after.waitAuth = true → ∃ cid, after.ownCid = some cid ∧
      session.pending ++ requested records = [cid])
    (idle : after.waitAuth = false → session.pending ++ requested records = []) :
    Sound (session.apply ⟨after, records, raised⟩) where
  identity := by
    intro authenticated done
    obtain ⟨cid, own, allowed⟩ := identity authenticated done
    exact ⟨cid, own, mem_append_left _ allowed⟩
  named := by
    intro cid allowed
    exact sound.named cid ((allowed_append_iff cid unanswered).mp allowed)
  loggedIn := loggedIn
  waiting := waiting
  idle := idle
  traced := sound.traced.append acts

/-- A step that keeps the login fields keeps the invariant. -/
theorem Sound.keeps {after : ClientConn} {raised : Bool} (same : SameLogin after session.conn)
    (acts : ActsFor session.conn records) :
    Sound (session.apply ⟨after, records, raised⟩) := by
  apply sound.apply acts.unanswered (sound.acts acts)
  · rw [same.authenticated, same.waitAuth, same.ownCid]
    exact sound.identity
  · rw [same.loggedIn, same.authenticated, same.waitAuth]
    exact sound.loggedIn
  · rw [same.waitAuth, same.ownCid, acts.silent, append_nil]
    exact sound.waiting
  · rw [same.waitAuth, acts.silent, append_nil]
    exact sound.idle

/-- A handled message keeps the invariant if it keeps the identity. -/
theorem Sound.handles {string : Bytes} {received : Received}
    (handles : Handles session.conn string received)
    (keepsIdentity : session.KeepsIdentity string) : Sound (session.apply received) := by
  cases handles with
  | keeps same acts => exact sound.keeps same acts
  | accepts idle authenticated same acts =>
    apply sound.apply acts.unanswered (sound.acts acts)
    · rw [same.authenticated, same.waitAuth, same.ownCid]
      exact sound.identity
    · intro _
      exact ⟨same.authenticated.trans authenticated, same.waitAuth.trans idle⟩
    · rw [same.waitAuth, same.ownCid, acts.silent, append_nil]
      exact sound.waiting
    · rw [same.waitAuth, acts.silent, append_nil]
      exact sound.idle
  | denies idle loggedOut parsed refused same acts =>
    apply sound.apply acts.unanswered (sound.acts acts)
    · intro authenticated _
      rw [same.authenticated] at authenticated
      rcases keepsIdentity idle loggedOut authenticated _ parsed with asks | allowed
      · exact absurd asks refused
      · exact ⟨_, same.ownCid, allowed⟩
    · intro loggedIn
      rw [same.loggedIn] at loggedIn
      exact absurd (loggedOut.symm.trans loggedIn) (by decide)
    · intro waiting
      rw [same.waitAuth] at waiting
      exact absurd (idle.symm.trans waiting) (by decide)
    · rw [acts.silent, append_nil]
      intro _
      exact sound.idle idle
  | asks idle loggedOut parsed same =>
    apply sound.apply
    · simp
    · simp [Record.actsUnder]
    · intro _ done
      exact absurd (same.waitAuth.symm.trans done) (by simp)
    · intro loggedIn
      rw [same.loggedIn] at loggedIn
      exact absurd (loggedOut.symm.trans loggedIn) (by decide)
    · intro _
      exact ⟨_, same.ownCid, by simp [sound.idle idle, requested]⟩
    · intro done
      exact absurd (same.waitAuth.symm.trans done) (by simp)

/-- At most one request waits for an answer, and it names the current identifier. -/
theorem Sound.pending_answer {position : Nat} {cid : Bytes}
    (found : session.pending[position]? = some cid) :
    session.conn.waitAuth = true ∧ session.conn.ownCid = some cid ∧
      session.pending.eraseIdx position = [] := by
  cases wait : session.conn.waitAuth with
  | false => simp [sound.idle wait] at found
  | true =>
    obtain ⟨own, same, pending⟩ := sound.waiting wait
    rw [pending] at found ⊢
    cases position with
    | zero =>
      obtain rfl : own = cid := by simpa using found
      exact ⟨rfl, same, rfl⟩
    | succ position => simp at found

/-- An answer in order keeps the invariant. -/
theorem Sound.authFinished {position : Nat} {cid : Bytes} {allowed : Bool}
    (found : session.pending[position]? = some cid) (order : session.AnswersInOrder cid allowed) :
    Sound ({ session with pending := session.pending.eraseIdx position }.authFinished cid
      allowed) := by
  obtain ⟨wait, own, answered⟩ := sound.pending_answer found
  have loggedOut : session.conn.loggedIn = false := by
    cases loggedIn : session.conn.loggedIn with
    | false => rfl
    | true => exact absurd (wait.symm.trans (sound.loggedIn loggedIn).2) (by decide)
  rw [answered]
  cases allowed with
  | true =>
    have name : cid ≠ [] := order
    have traced : AllowedBefore (session.trace ++ [.answered cid true]) :=
      sound.traced.append (by simp [Record.actsUnder])
    have allowedNow : Record.answered cid true ∈ session.trace ++ [.answered cid true] :=
      mem_append_right _ mem_cons_self
    exact {
      identity := fun _ _ => ⟨cid, own, allowedNow⟩
      named := by
        intro other found
        rcases mem_append.mp found with before | now
        · exact sound.named other before
        · obtain rfl : other = cid := by simpa using now
          exact name
      loggedIn := fun loggedIn => absurd (loggedOut.symm.trans loggedIn) (by decide)
      waiting := fun waiting => absurd waiting Bool.false_ne_true
      idle := fun _ => rfl
      traced := traced }
  | false =>
    have traced : AllowedBefore (session.trace ++ [.answered cid false] ++
        [.send [letter 'F']]) :=
      (sound.traced.append (by simp [Record.actsUnder])).append (by simp [Record.actsUnder])
    have older (other : Bytes) (found : Record.answered other true ∈
        session.trace ++ [.answered cid false] ++ [.send [letter 'F']]) :
        session.Allowed other := by
      simpa [Session.Allowed] using found
    exact {
      identity := by
        intro authenticated _
        have before : session.Allowed cid := order authenticated
        exact ⟨cid, own, mem_append_left _ (mem_append_left _ before)⟩
      named := fun other found => sound.named other (older other found)
      loggedIn := fun loggedIn => absurd (loggedOut.symm.trans loggedIn) (by decide)
      waiting := fun waiting => absurd waiting Bool.false_ne_true
      idle := fun _ => rfl
      traced := traced }

end

/-- The position of the loop is not part of the invariant, and neither is the buffer. -/
theorem Sound.congr {first second : Session} (sound : Sound first)
    (login : SameLogin second.conn first.conn) (pending : second.pending = first.pending)
    (trace : second.trace = first.trace) : Sound second where
  identity := by
    have same : second.Allowed = first.Allowed := by
      funext cid
      rw [Session.Allowed, Session.Allowed, trace]
    rw [login.authenticated, login.waitAuth, login.ownCid, same]
    exact sound.identity
  named := by
    intro cid allowed
    exact sound.named cid (by rw [Session.Allowed, ← trace]; exact allowed)
  loggedIn := by
    rw [login.loggedIn, login.authenticated, login.waitAuth]
    exact sound.loggedIn
  waiting := by
    rw [login.waitAuth, login.ownCid, pending]
    exact sound.waiting
  idle := by
    rw [login.waitAuth, pending]
    exact sound.idle
  traced := by
    rw [trace]
    exact sound.traced

/-- Every orderly step keeps the invariant. -/
theorem Sound.step {next : Session} {event : Event} (sound : Sound session)
    (orderly : session.Orderly event) (step : session.step event = some next) :
    Sound next := by
  unfold Session.step at step
  split at step
  · rename_i position registration replaying
    obtain rfl := Option.some.inj step
    have handed : ∀ string ∈ session.handed (.replay registration), session.KeepsIdentity string :=
      orderly
    simp only [Session.handed, replaying, bind_some] at handed
    unfold Session.replay
    split
    · exact sound.congr ⟨rfl, rfl, rfl, rfl, rfl⟩ rfl rfl
    · rename_i message found
      have handled := sound.handles
        (stringReceived_handles session.conn registration message) (handed message found)
      exact handled.congr (.refl _) rfl rfl
  · rename_i string registration replaying
    obtain rfl := Option.some.inj step
    exact sound.handles (stringReceived_handles session.conn registration string)
      (orderly string rfl)
  · rename_i position allowed replaying
    obtain ⟨cid, found, rfl⟩ := map_eq_some_iff.mp step
    exact sound.authFinished found (orderly cid found)
  · obtain rfl := Option.some.inj step
    have kept := connectionLost_keeps session.conn fun loggedIn => (sound.loggedIn loggedIn).2
    exact sound.keeps kept.1 kept.2
  · obtain rfl := Option.some.inj step
    have kept := checkLogged_keeps session.conn
    exact sound.keeps kept.1 kept.2
  · split at step
    · obtain rfl := Option.some.inj step
      have kept := ping_keeps session.conn
      exact sound.keeps kept.1 kept.2
    · exact absurd step (by simp)
  · exact absurd step (by simp)

theorem start_sound (addrName challenge : Bytes) : Sound (.start addrName challenge) where
  identity := by simp [Session.start, ClientConn.connectionMade]
  named := by simp [Session.Allowed, Session.start]
  loggedIn := by simp [Session.start, ClientConn.connectionMade]
  waiting := by simp [Session.start, ClientConn.connectionMade]
  idle := fun _ => rfl
  traced := by
    intro before record after split cid under
    cases before with
    | nil =>
      obtain ⟨rfl, _⟩ := List.cons.inj split
      simp [Record.actsUnder] at under
    | cons first before => simp [Session.start] at split

/-- Every orderly run keeps the invariant. -/
theorem Sound.run {final : Session} {events : List Event} (sound : Sound session)
    (orderly : session.OrderlyRun events) (run : session.run events = some final) :
    Sound final := by
  induction events generalizing session with
  | nil =>
    obtain rfl := Option.some.inj run
    exact sound
  | cons event events ih =>
    obtain ⟨next, step, rest⟩ := bind_eq_some_iff.mp run
    exact ih (sound.step orderly.1 step) (orderly.2 next step) rest

/-- An orderly connection acts only under identifiers that the authenticator allowed before. -/
theorem session_acts_under_allowed (addrName challenge : Bytes) (events : List Event)
    (session : Session) (orderly : (Session.start addrName challenge).OrderlyRun events)
    (run : (Session.start addrName challenge).run events = some session) :
    AllowedBefore session.trace :=
  ((start_sound addrName challenge).run orderly run).traced

/-- This message logs in with an identifier of one byte. -/
def loginMessage (cid : UInt8) : Bytes :=
  [letter 'L', letter 'O', 0, 0, 0, 1, cid, 0, 0, 0, 1, 0]

/-- The client asks for a session while the answer of the authenticator is awaited. -/
def honestLogin : List Event :=
  [.message (loginMessage 1) .refused, .message [letter 'H', 1] .refused, .answer 0 true,
    .replay .accepted, .replay .refused, .message [letter 'R', 0, 0, 0, 1, letter 'P'] .refused]

theorem session_acts_under_allowed_honest :
    (Session.start [] [9]).OrderlyRun honestLogin ∧
      ∃ session, (Session.start [] [9]).run honestLogin = some session ∧
        Record.routeToPlugin [letter 'P'] [] (encodeHex [1]) ∈ session.trace ∧
        AllowedBefore session.trace := by
  have orderly : (Session.start [] [9]).OrderlyRun honestLogin := by decide
  obtain ⟨session, run⟩ := isSome_iff_exists.mp
    (show ((Session.start [] [9]).run honestLogin).isSome by decide)
  have routed : ∀ session ∈ (Session.start [] [9]).run honestLogin,
      Record.routeToPlugin [letter 'P'] [] (encodeHex [1]) ∈ session.trace := by decide
  exact ⟨orderly, session, run, routed session run,
    session_acts_under_allowed [] [9] honestLogin session orderly run⟩

/-- The second login has a byte too many and names another identifier. -/
def stolenLogin : List Event :=
  [.message (loginMessage 1) .refused, .answer 0 true, .replay .refused,
    .message (loginMessage 2 ++ [0]) .refused, .message [letter 'H', 1] .accepted]

theorem session_acts_under_stolen :
    ∃ session, (Session.start [] [9]).run stolenLogin = some session ∧
      Record.registerClient (encodeHex [2]) ∈ session.trace ∧
      ∀ allowed, Record.answered (encodeHex [2]) allowed ∉ session.trace := by
  obtain ⟨session, run⟩ := isSome_iff_exists.mp
    (show ((Session.start [] [9]).run stolenLogin).isSome by decide)
  have registered : ∀ session ∈ (Session.start [] [9]).run stolenLogin,
      Record.registerClient (encodeHex [2]) ∈ session.trace ∧
      ∀ allowed, Record.answered (encodeHex [2]) allowed ∉ session.trace := by decide
  exact ⟨session, run, registered session run⟩

end Ucollect.Master
