import Ucollect.Proof.Login.Authenticator

/-
This file proves when the messages that wait for the authenticator are handled in their order.
-/

namespace Ucollect.Master
open Library List Option

/-- The event hands these messages to the handler. A buffered message is not handled yet. -/
def Session.processes (session : Session) : Event → List Bytes
  | .message string _ => if session.conn.waitAuth then [] else [string]
  | .replay _ =>
    match session.replaying with
    | none => []
    | some position =>
      if session.conn.waitAuth then []
      else ((session.conn.authBuffer.getD [])[position]?).toList
  | _ => []

/-- The session is watched from outside. A refused client does not expect its buffered messages to be
handled any more. -/
structure Observed where
  session : Session
  received : List Bytes
  processed : List Bytes
  deriving DecidableEq

def Observed.start (addrName challenge : Bytes) : Observed := ⟨.start addrName challenge, [], []⟩

def Observed.step (observed : Observed) (event : Event) : Option Observed :=
  (observed.session.step event).map fun next =>
    let processed := observed.processed ++ observed.session.processes event
    let received :=
      match event with
      | .message string _ => observed.received ++ [string]
      | .answer _ allowed => if allowed then observed.received else processed
      | _ => observed.received
    ⟨next, received, processed⟩

def Observed.run (observed : Observed) : List Event → Option Observed
  | [] => some observed
  | event :: events => (observed.step event).bind fun next => next.run events

/-- The handler raises an exception, or it starts to wait for the authenticator. -/
def ClientConn.Stops (conn : ClientConn) (registration : Registration) (message : Bytes) : Prop :=
  (conn.stringReceived registration message).raised = true ∨
    (conn.stringReceived registration message).conn.waitAuth = true

instance (conn : ClientConn) (registration : Registration) (message : Bytes) :
    Decidable (conn.Stops registration message) := inferInstanceAs (Decidable (_ ∨ _))

/-- These messages are still to be handled. -/
def Session.outstanding (session : Session) : List Bytes :=
  match session.replaying with
  | some position => (session.conn.authBuffer.getD []).drop position
  | none => if session.conn.waitAuth then session.conn.authBuffer.getD [] else []

/-- No message waits for a second answer, no wait starts with messages that an exception has left in
the buffer, and only the last message of a replay may stop it. -/
def Session.Careful (session : Session) : Event → Prop
  | .message string registration =>
    if session.conn.waitAuth then session.conn.authBuffer ≠ none
    else (session.conn.stringReceived registration string).conn.waitAuth = true →
      session.conn.authBuffer.getD [] = []
  | .replay registration =>
    ∀ message ∈ session.outstanding.head?, session.conn.Stops registration message →
      session.outstanding = [message]
  | _ => True

def Observed.CarefulRun (observed : Observed) : List Event → Prop
  | [] => True
  | event :: events => observed.session.Careful event ∧
      ∀ next ∈ observed.step event, next.CarefulRun events

instance (session : Session) : (event : Event) → Decidable (session.Careful event)
  | .message string registration => inferInstanceAs (Decidable
      (if session.conn.waitAuth then session.conn.authBuffer ≠ none
      else (session.conn.stringReceived registration string).conn.waitAuth = true →
        session.conn.authBuffer.getD [] = []))
  | .replay registration => inferInstanceAs (Decidable
      (∀ message ∈ session.outstanding.head?, session.conn.Stops registration message →
        session.outstanding = [message]))
  | .answer _ _ | .connectionLost | .checkLogged | .ping => inferInstanceAs (Decidable True)

instance decidableCarefulRun : (events : List Event) → (observed : Observed) →
    Decidable (observed.CarefulRun events)
  | [], _ => inferInstanceAs (Decidable True)
  | event :: events, observed =>
    have (next : Observed) : Decidable (next.CarefulRun events) := decidableCarefulRun events next
    inferInstanceAs (Decidable (_ ∧ ∀ next ∈ observed.step event, next.CarefulRun events))

section Handlers

variable {conn : ClientConn} {registration : Registration} {string : Bytes}

/-- A handler leaves the buffer alone, and it asks once when it starts to wait. -/
structure Serves (conn : ClientConn) (received : Received) : Prop where
  buffer : received.conn.authBuffer = conn.authBuffer
  asks : received.conn.waitAuth = false ∧ requested received.records = [] ∨
    received.conn.waitAuth = true ∧ received.raised = false ∧
      (requested received.records).length = 1

section

variable (idle : conn.waitAuth = false)
include idle

theorem receiveLogin_serves (params : Bytes) : Serves conn (conn.receiveLogin params) := by
  unfold ClientConn.receiveLogin
  cases parseLogin params with
  | none => exact ⟨rfl, .inl ⟨idle, rfl⟩⟩
  | some login =>
    dsimp only
    split
    · exact ⟨rfl, .inl ⟨idle, rfl⟩⟩
    · split
      · exact ⟨rfl, .inl ⟨idle, rfl⟩⟩
      · split
        · exact ⟨rfl, .inl ⟨idle, rfl⟩⟩
        · split
          · exact ⟨rfl, .inl ⟨idle, rfl⟩⟩
          · exact ⟨rfl, .inr ⟨rfl, rfl, rfl⟩⟩

theorem receiveHello_serves (params : Bytes) :
    Serves conn (conn.receiveHello registration params) := by
  have read : (conn.readProtoVersion params).authBuffer = conn.authBuffer ∧
      (conn.readProtoVersion params).waitAuth = false := by
    cases params <;> exact ⟨rfl, idle⟩
  unfold ClientConn.receiveHello
  split
  · cases registration with
    | refused => exact ⟨read.1, .inl ⟨read.2, rfl⟩⟩
    | accepted => exact ⟨read.1, .inl ⟨read.2, rfl⟩⟩
    | raised => exact ⟨read.1, .inl ⟨read.2, rfl⟩⟩
  · exact ⟨rfl, .inl ⟨idle, rfl⟩⟩

theorem calls_serves {record : Record} (asks : requested [record] = []) :
    Serves conn (conn.calls registration record) := by
  cases registration <;> exact ⟨rfl, .inl ⟨idle, asks⟩⟩

theorem receiveLoggedIn_serves (message : UInt8) (params : Bytes) :
    Serves conn (conn.receiveLoggedIn registration message params) := by
  unfold ClientConn.receiveLoggedIn
  split
  · exact ⟨rfl, .inl ⟨idle, rfl⟩⟩
  · split
    · exact ⟨rfl, .inl ⟨idle, rfl⟩⟩
    · split
      · cases extractString params with
        | none => exact ⟨rfl, .inl ⟨idle, rfl⟩⟩
        | some parts => exact calls_serves idle rfl
      · split
        · split
          · cases availablePlugins params.length params <;> exact ⟨rfl, .inl ⟨idle, rfl⟩⟩
          · cases handledVersions params with
            | none => exact ⟨rfl, .inl ⟨idle, rfl⟩⟩
            | some versions => exact calls_serves idle rfl
        · exact ⟨rfl, .inl ⟨idle, rfl⟩⟩

theorem stringReceived_serves (registration : Registration) (string : Bytes) :
    Serves conn (conn.stringReceived registration string) := by
  unfold ClientConn.stringReceived
  rw [idle, if_neg Bool.false_ne_true]
  cases string with
  | nil => exact ⟨rfl, .inl ⟨idle, rfl⟩⟩
  | cons message params =>
    dsimp only
    split
    · exact receiveLoggedIn_serves idle message params
    · split
      · exact receiveLogin_serves idle params
      · split
        · exact receiveHello_serves idle params
        · split
          · exact ⟨rfl, .inl ⟨rfl, rfl⟩⟩
          · exact ⟨rfl, .inl ⟨idle, rfl⟩⟩

end

theorem stringReceived_waiting {buffer : List Bytes} (waiting : conn.waitAuth = true)
    (full : conn.authBuffer = some buffer) (registration : Registration) (string : Bytes) :
    conn.stringReceived registration string =
      .returned { conn with authBuffer := some (buffer ++ [string]) } [] := by
  unfold ClientConn.stringReceived
  rw [if_pos waiting, full]

end Handlers

/-- A wait has one request, and the messages that are not handled yet follow the others. -/
structure Kept (observed : Observed) : Prop where
  asked : observed.session.pending.length = if observed.session.conn.waitAuth then 1 else 0
  order : observed.received = observed.processed ++ observed.session.outstanding
  ends : ∀ position, observed.session.replaying = some position →
    observed.session.conn.waitAuth = true →
      (observed.session.conn.authBuffer.getD []).length ≤ position

section Steps

variable {session : Session} {received processed : List Bytes} {string : Bytes}
  {registration : Registration}

section

variable (kept : Kept ⟨session, received, processed⟩)
include kept

/-- A message that comes between two waits is handled at once. -/
theorem Kept.message (idle : session.replaying = none)
    (careful : session.Careful (.message string registration)) :
    Kept ⟨session.apply (session.conn.stringReceived registration string), received ++ [string],
      processed ++ session.processes (.message string registration)⟩ := by
  have order := kept.order
  have asked := kept.asked
  simp only [Session.outstanding, idle] at order
  unfold Session.Careful at careful
  unfold Session.processes
  cases waiting : session.conn.waitAuth with
  | true =>
    simp only [waiting, if_true] at careful asked order
    obtain ⟨buffer, full⟩ := ne_none_iff_exists'.mp careful
    rw [stringReceived_waiting waiting full]
    refine ⟨?_, ?_, ?_⟩
    · simpa [Session.apply, Received.returned, requested, waiting] using asked
    · simp [Session.apply, Received.returned, Session.outstanding, idle, waiting, order, full]
    · simp [Session.apply, idle]
  | false =>
    simp only [waiting, Bool.false_eq_true, if_false, append_nil] at careful asked order
    obtain ⟨buffer, asks⟩ := stringReceived_serves waiting registration string
    have pending : session.pending = [] := length_eq_zero_iff.mp asked
    refine ⟨?_, ?_, ?_⟩
    · obtain ⟨quiet, none'⟩ | ⟨waits, -, one⟩ := asks
      · simp [Session.apply, pending, quiet, none']
      · simp [Session.apply, pending, waits, one]
    · obtain ⟨quiet, -⟩ | ⟨waits, -, -⟩ := asks
      · simp [Session.apply, Session.outstanding, idle, quiet, order]
      · simp [Session.apply, Session.outstanding, idle, waits, order, buffer, careful waits]
    · simp [Session.apply, idle]

/-- The decision starts the replay, or it forgets the buffered messages. -/
theorem Kept.answer (idle : session.replaying = none) {position : Nat} {cid : Bytes}
    (found : session.pending[position]? = some cid) (allowed : Bool) :
    Kept ⟨{ session with pending := session.pending.eraseIdx position }.authFinished cid allowed,
      if allowed then received else processed ++ [], processed ++ []⟩ := by
  have order := kept.order
  have asked := kept.asked
  obtain ⟨inside, -⟩ := List.getElem?_eq_some_iff.mp found
  have waiting : session.conn.waitAuth = true := by
    by_contra waiting
    rw [Bool.not_eq_true] at waiting
    simp only [waiting, Bool.false_eq_true, if_false] at asked
    omega
  simp only [waiting, if_true] at asked
  have erased : session.pending.eraseIdx position = [] := by
    apply length_eq_zero_iff.mp
    rw [length_eraseIdx_of_lt inside, asked]
  simp only [Session.outstanding, idle, waiting, if_true] at order
  cases allowed with
  | true =>
    refine ⟨?_, ?_, ?_⟩
    · simp [Session.authFinished, erased]
    · cases full : session.conn.authBuffer <;>
        simp [Session.authFinished, Session.outstanding, order, full]
    · simp [Session.authFinished]
  | false =>
    refine ⟨?_, ?_, ?_⟩
    · simp [Session.authFinished, Session.apply, ClientConn.loginFailure, Received.returned,
        requested, erased]
    · simp [Session.authFinished, Session.apply, ClientConn.loginFailure, Received.returned,
        Session.outstanding, idle]
    · simp [Session.authFinished, Session.apply, idle]

/-- A turn of the loop handles the first of the outstanding messages. -/
theorem Kept.replay {position : Nat} (running : session.replaying = some position)
    (careful : session.Careful (.replay registration)) :
    Kept ⟨session.replay position registration, received,
      processed ++ session.processes (.replay registration)⟩ := by
  have order := kept.order
  have asked := kept.asked
  have ends : session.conn.waitAuth = true →
      (session.conn.authBuffer.getD []).length ≤ position := kept.ends position running
  simp only [Session.outstanding, running] at order
  unfold Session.Careful Session.outstanding at careful
  simp only [running] at careful
  unfold Session.processes Session.replay
  simp only [running]
  cases found : (session.conn.authBuffer.getD [])[position]? with
  | none =>
    have past := drop_eq_nil_of_le (List.getElem?_eq_none_iff.mp found)
    refine ⟨asked, ?_, by simp⟩
    simp [Session.outstanding, order, past]
  | some message =>
    obtain ⟨inside, here⟩ := List.getElem?_eq_some_iff.mp found
    have waiting : session.conn.waitAuth = false := by
      by_contra waiting
      rw [Bool.not_eq_false] at waiting
      exact absurd (ends waiting) (by omega)
    rw [drop_eq_getElem_cons inside, here] at order careful
    simp only [waiting, Bool.false_eq_true, if_false] at asked
    obtain ⟨buffer, asks⟩ := stringReceived_serves waiting registration message
    have pending : session.pending = [] := length_eq_zero_iff.mp asked
    have last : session.conn.Stops registration message →
        (session.conn.authBuffer.getD []).drop (position + 1) = [] := by
      intro stops
      simpa using careful message rfl stops
    refine ⟨?_, ?_, ?_⟩
    · obtain ⟨quiet, none'⟩ | ⟨waits, -, one⟩ := asks
      · simp [Session.apply, pending, quiet, none']
      · simp [Session.apply, pending, waits, one]
    · cases raised : (session.conn.stringReceived registration message).raised with
      | true =>
        obtain ⟨quiet, -⟩ | ⟨-, returned, -⟩ := asks
        · simp [Session.apply, Session.outstanding, order, waiting, raised, quiet,
            last (.inl raised)]
        · rw [raised] at returned
          cases returned
      | false => simp [Session.apply, Session.outstanding, order, waiting, raised, buffer]
    · intro next running waits
      have past := last (.inr waits)
      rw [drop_eq_nil_iff] at past
      simp only [Session.apply] at running ⊢
      rw [buffer]
      split at running
      · cases running
      · cases running
        exact past

/-- The other events do not touch the buffer. -/
theorem Kept.other (idle : session.replaying = none) {result : Received}
    (buffer : result.conn.authBuffer = session.conn.authBuffer)
    (waitAuth : result.conn.waitAuth = session.conn.waitAuth)
    (quiet : requested result.records = []) :
    Kept ⟨session.apply result, received, processed ++ []⟩ where
  asked := by simpa [Session.apply, quiet, waitAuth] using kept.asked
  order := by simpa [Session.apply, Session.outstanding, idle, buffer, waitAuth] using kept.order
  ends := by simp [Session.apply, idle]

end

theorem Kept.step {observed next : Observed} {event : Event} (kept : Kept observed)
    (careful : observed.session.Careful event) (stepped : observed.step event = some next) :
    Kept next := by
  obtain ⟨session, received, processed⟩ := observed
  rw [Observed.step, map_eq_some_iff] at stepped
  obtain ⟨after, found, rfl⟩ := stepped
  cases running : session.replaying with
  | some position =>
    cases event with
    | replay registration =>
      simp only [Session.step, running, some_inj] at found
      subst found
      exact kept.replay running careful
    | _ => simp [Session.step, running] at found
  | none =>
    cases event with
    | message string registration =>
      simp only [Session.step, running, some_inj] at found
      subst found
      exact kept.message running careful
    | answer position allowed =>
      simp only [Session.step, running, map_eq_some_iff] at found
      obtain ⟨cid, pending, rfl⟩ := found
      have answered := kept.answer running pending allowed
      simp only [running] at answered
      exact answered
    | replay registration => simp [Session.step, running] at found
    | connectionLost =>
      simp only [Session.step, running, some_inj] at found
      subst found
      apply kept.other running <;> unfold ClientConn.connectionLost <;> split <;>
        cases session.conn.loggedIn <;> simp [Received.returned, requested]
    | checkLogged =>
      simp only [Session.step, running, some_inj] at found
      subst found
      apply kept.other running <;> unfold ClientConn.checkLogged <;> split <;>
        simp [Received.returned, requested]
    | ping =>
      simp only [Session.step, running, ite_none_right_eq_some, some_inj] at found
      obtain ⟨-, rfl⟩ := found
      apply kept.other running <;> unfold ClientConn.ping <;>
        simp [Received.returned, requested]

theorem Kept.run {observed final : Observed} {events : List Event} (kept : Kept observed)
    (careful : observed.CarefulRun events) (ran : observed.run events = some final) :
    Kept final := by
  induction events generalizing observed with
  | nil =>
    cases ran
    exact kept
  | cons event events ih =>
    rw [Observed.run, bind_eq_some_iff] at ran
    obtain ⟨next, stepped, ran⟩ := ran
    exact ih (kept.step careful.1 stepped) (careful.2 next stepped) ran

theorem kept_start (addrName challenge : Bytes) : Kept (.start addrName challenge) where
  asked := rfl
  order := rfl
  ends := nofun

end Steps

/-- The turns of the loop follow each other, and each one has its own answer about the registration. -/
def turns (registrations : Nat → Registration) (first count : Nat) : List Event :=
  (List.range' first count).map fun turn => .replay (registrations turn)

/-- The loop ends in this state. -/
def Observed.EndsIn (registrations : Nat → Registration) (first : Nat) (observed final : Observed) :
    Prop :=
  ∃ count, observed.run (turns registrations first count) = some final ∧
    final.session.replaying = none

/-- Only the last message may raise an exception or start to wait. -/
def ClientConn.Smooth (registrations : Nat → Registration) : ClientConn → Nat → List Bytes → Prop
  | _, _, [] => True
  | _, _, [_] => True
  | conn, turn, message :: other :: rest =>
    ¬conn.Stops (registrations turn) message ∧
      ClientConn.Smooth registrations (conn.stringReceived (registrations turn) message).conn
        (turn + 1) (other :: rest)

section Loop

variable {observed next final : Observed} {registrations : Nat → Registration} {first position : Nat}
  {message : Bytes} {rest buffer : List Bytes}

theorem turns_succ (registrations : Nat → Registration) (first count : Nat) :
    turns registrations first (count + 1) =
      .replay (registrations first) :: turns registrations (first + 1) count := by
  simp [turns, List.range'_succ]

/-- A turn of the running loop is a step. -/
theorem step_replay (running : observed.session.replaying = some position)
    (registration : Registration) :
    observed.step (.replay registration) = some ⟨observed.session.replay position registration,
      observed.received, observed.processed ++ observed.session.processes (.replay registration)⟩ := by
  simp [Observed.step, Session.step, running]

theorem endsIn_next (running : observed.session.replaying = some position)
    (stepped : observed.step (.replay (registrations first)) = some next) :
    observed.EndsIn registrations first final ↔ next.EndsIn registrations (first + 1) final := by
  constructor
  · intro ends
    obtain ⟨count, ran, done'⟩ := ends
    cases count with
    | zero =>
      cases ran
      rw [running] at done'
      cases done'
    | succ count =>
      rw [turns_succ, Observed.run, stepped] at ran
      exact ⟨count, ran, done'⟩
  · intro ends
    obtain ⟨count, ran, done'⟩ := ends
    refine ⟨count + 1, ?_, done'⟩
    rw [turns_succ, Observed.run, stepped]
    exact ran

theorem endsIn_idle (idle : observed.session.replaying = none) :
    observed.EndsIn registrations first final ↔ final = observed := by
  constructor
  · intro ends
    obtain ⟨count, ran, -⟩ := ends
    cases count with
    | zero =>
      cases ran
      rfl
    | succ count =>
      rw [turns_succ, Observed.run] at ran
      simp [Observed.step, Session.step, idle] at ran
  · intro same
    subst same
    exact ⟨0, rfl, idle⟩

/-- Each turn of a waiting loop puts its message behind the others, so the loop never ends. -/
theorem not_endsIn_waiting (running : observed.session.replaying = some position)
    (waiting : observed.session.conn.waitAuth = true)
    (full : observed.session.conn.authBuffer = some buffer) (inside : position < buffer.length) :
    ¬observed.EndsIn registrations first final := by
  intro ends
  obtain ⟨count, ran, done'⟩ := ends
  induction count generalizing observed first position buffer with
  | zero =>
    cases ran
    rw [running] at done'
    cases done'
  | succ count ih =>
    rw [turns_succ, Observed.run, step_replay running, bind_some] at ran
    have here : (observed.session.conn.authBuffer.getD [])[position]? = some buffer[position] := by
      rw [full]
      exact List.getElem?_eq_getElem inside
    refine @ih _ (first + 1) (position + 1) (buffer ++ [buffer[position]]) ?_ ?_ ?_ ?_ ran
    · simp only [Session.replay, here, stringReceived_waiting waiting full]
      rfl
    · simp only [Session.replay, here, stringReceived_waiting waiting full]
      exact waiting
    · simp only [Session.replay, here, stringReceived_waiting waiting full]
      rfl
    · simpa using inside

section

variable (running : observed.session.replaying = some position)
include running

/-- The loop is at its end. -/
theorem endsIn_nil (left : (observed.session.conn.authBuffer.getD []).drop position = []) :
    ∃ final, observed.EndsIn registrations first final ∧ final.processed = observed.processed := by
  have nothing : (observed.session.conn.authBuffer.getD [])[position]? = none :=
    List.getElem?_eq_none_iff.mpr (drop_eq_nil_iff.mp left)
  refine ⟨_, (endsIn_next running (step_replay running _)).mpr ((endsIn_idle ?_).mpr rfl), ?_⟩
  · simp [Session.replay, nothing]
  · simp [Session.processes, running, nothing]

/-- A turn of the loop handles the next message. -/
theorem step_replay_cons
    (left : (observed.session.conn.authBuffer.getD []).drop position = message :: rest)
    (idle : observed.session.conn.waitAuth = false) (registration : Registration) :
    ∃ next, observed.step (.replay registration) = some next ∧
      next.processed = observed.processed ++ [message] ∧
      next.session.conn = (observed.session.conn.stringReceived registration message).conn ∧
      next.session.replaying =
        (if (observed.session.conn.stringReceived registration message).raised then none
        else some (position + 1)) ∧
      (next.session.conn.authBuffer.getD []).drop (position + 1) = rest := by
  have inside : position < (observed.session.conn.authBuffer.getD []).length := by
    by_contra outside
    rw [drop_eq_nil_of_le (by omega)] at left
    cases left
  rw [drop_eq_getElem_cons inside, List.cons.injEq] at left
  have here : (observed.session.conn.authBuffer.getD [])[position]? = some message := by
    rw [List.getElem?_eq_getElem inside, left.1]
  have buffer := (stringReceived_serves idle registration message).buffer
  refine ⟨_, step_replay running registration, ?_, ?_, ?_, ?_⟩
  · simp [Session.processes, running, idle, here]
  · simp [Session.replay, here, Session.apply]
  · simp [Session.replay, here]
  · simp [Session.replay, here, Session.apply, buffer, left.2]

/-- The loop ends and handles everything if and only if no message but the last stops it. -/
theorem endsIn_iff_smooth (left : (observed.session.conn.authBuffer.getD []).drop position = rest)
    (idle : rest ≠ [] → observed.session.conn.waitAuth = false) :
    (∃ final, observed.EndsIn registrations first final ∧
        final.processed = observed.processed ++ rest) ↔
      observed.session.conn.Smooth registrations first rest := by
  induction rest generalizing observed first position with
  | nil =>
    rw [append_nil]
    exact iff_of_true (endsIn_nil running left) trivial
  | cons message rest ih =>
    obtain ⟨next, stepped, processed, conn, replaying, after⟩ :=
      step_replay_cons running left (idle (cons_ne_nil _ _)) (registrations first)
    have serves := stringReceived_serves (idle (cons_ne_nil _ _)) (registrations first) message
    simp only [endsIn_next running stepped]
    have shifted : observed.processed ++ message :: rest = next.processed ++ rest := by
      simp [processed]
    rw [shifted]
    cases rest with
    | nil =>
      rw [append_nil]
      refine iff_of_true ?_ trivial
      split at replaying
      · exact ⟨next, (endsIn_idle replaying).mpr rfl, rfl⟩
      · exact endsIn_nil replaying after
    | cons other rest =>
      rw [ClientConn.Smooth]
      by_cases raised :
          (observed.session.conn.stringReceived (registrations first) message).raised = true
      · rw [if_pos raised] at replaying
        simp only [endsIn_idle replaying, exists_eq_left]
        refine iff_of_false ?_ fun smooth => smooth.1 (.inl raised)
        simp
      · rw [if_neg raised] at replaying
        by_cases waits : next.session.conn.waitAuth = true
        · refine iff_of_false ?_ fun smooth => smooth.1 (.inr (conn ▸ waits))
          intro ends
          obtain ⟨final, ends, -⟩ := ends
          cases full : next.session.conn.authBuffer with
          | none => simp [full] at after
          | some buffer =>
            have inside : position + 1 < buffer.length := by
              by_contra outside
              rw [full, getD_some, drop_eq_nil_of_le (by omega)] at after
              cases after
            exact not_endsIn_waiting replaying waits full inside ends
        · rw [Bool.not_eq_true] at waits
          rw [ih replaying after fun _ => waits, conn]
          have goes : ¬observed.session.conn.Stops (registrations first) message := by
            unfold ClientConn.Stops
            rw [← conn, waits]
            simpa using raised
          simp [goes]

end

end Loop

/-- In every careful run the messages are handled once and in their order, and a replay ends with all of
them if and only if no message but the last raises an exception or starts to wait again. -/
theorem login_replay (addrName challenge : Bytes) (events : List Event) (observed : Observed)
    (careful : (Observed.start addrName challenge).CarefulRun events)
    (ran : (Observed.start addrName challenge).run events = some observed) :
    observed.processed <+: observed.received ∧
    (observed.session.conn.waitAuth = false → observed.session.replaying = none →
      observed.processed = observed.received) ∧
    (observed.session.replaying.isSome = true → ∀ registrations : Nat → Registration,
      (∃ final, observed.EndsIn registrations 0 final ∧ final.processed = observed.received) ↔
        observed.session.conn.Smooth registrations 0 observed.session.outstanding) := by
  have kept := (kept_start addrName challenge).run careful ran
  have order := kept.order
  refine ⟨⟨_, order.symm⟩, ?_, ?_⟩
  · intro idle stopped
    simp [order, Session.outstanding, stopped, idle]
  · intro running registrations
    obtain ⟨position, running⟩ := isSome_iff_exists.mp running
    have left : (observed.session.conn.authBuffer.getD []).drop position =
        observed.session.outstanding := by
      rw [Session.outstanding, running]
    rw [order]
    refine endsIn_iff_smooth running left fun some => ?_
    by_contra waits
    rw [Bool.not_eq_false] at waits
    exact some (left ▸ drop_eq_nil_of_le (kept.ends position running waits))

/-- A login of the client `a` with an empty response. -/
def sampleLogin : Bytes := letter 'L' :: letter 'O' :: (word32 1 ++ [letter 'a'] ++ word32 0)

/-- The client says hello before the answer comes. -/
def eagerEvents : List Event :=
  [.message sampleLogin .accepted, .message [letter 'H', 1] .accepted, .message [letter 'P'] .accepted,
    .answer 0 true]

def eagerState : Observed :=
  ((Observed.start [] [7]).run eagerEvents).getD (.start [] [7])

theorem login_replay_sample :
    eagerState.processed <+: eagerState.received ∧
    (eagerState.session.conn.waitAuth = false → eagerState.session.replaying = none →
      eagerState.processed = eagerState.received) ∧
    (eagerState.session.replaying.isSome = true → ∀ registrations : Nat → Registration,
      (∃ final, eagerState.EndsIn registrations 0 final ∧ final.processed = eagerState.received) ↔
        eagerState.session.conn.Smooth registrations 0 eagerState.session.outstanding) := by
  exact login_replay [] [7] eagerEvents eagerState (by decide) (by decide)

/-- The client repeats its login before the answer comes, and a hello follows. -/
def repeatedEvents : List Event :=
  [.message sampleLogin .accepted, .message sampleLogin .accepted,
    .message [letter 'H', 1] .accepted, .answer 0 true]

def repeatedState : Observed :=
  ((Observed.start [] [7]).run repeatedEvents).getD (.start [] [7])

theorem login_replay_not :
    ¬∀ (addrName challenge : Bytes) (events : List Event) (observed : Observed),
      (Observed.start addrName challenge).run events = some observed →
      observed.session.replaying.isSome = true → ∀ registrations : Nat → Registration,
        ∃ final, observed.EndsIn registrations 0 final ∧ final.processed = observed.received := by
  intro ends
  obtain ⟨final, done, -⟩ :=
    ends [] [7] repeatedEvents repeatedState (by decide) (by decide) fun _ => .accepted
  have running : repeatedState.session.replaying = some 0 := by decide
  have next := (endsIn_next running (step_replay running .accepted)).mp done
  exact @not_endsIn_waiting _ final _ 1 1 [sampleLogin, [letter 'H', 1]] (by decide) (by decide)
    (by decide) (by decide) next

end Ucollect.Master
