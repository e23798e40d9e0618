import Ucollect.Construction.Fake.Log

/-
An attempt at the limit triggers unless an earlier trigger still holds back. A cleaning forgets
the attempts and keeps the times that are still ahead.
-/

namespace Ucollect.Fake
open Library Core List Function

variable {log : Log} {call other : Call} {actions : List LogAction} {now : Nat}

/-- The local variable of `log_event` is the one that is added to the flag of the log. -/
def Log.triggers (log : Log) (call : Call) (now : Nat) : Prop :=
  (logEvent { log with attemptsReached := false } call.report now).2.attemptsReached = true

instance (log : Log) (call : Call) (now : Nat) : Decidable (log.triggers call now) :=
  inferInstanceAs (Decidable (_ = true))

/-- Two logins are attempts of one address on one server. -/
def Call.Matches (call other : Call) : Prop :=
  call.type = .login ∧ call.code = other.code ∧ call.remAddress = other.remAddress

instance (call other : Call) : Decidable (call.Matches other) :=
  inferInstanceAs (Decidable (_ ∧ _))

def Call.tally (call : Call) (count : Nat) : LogAction → Nat
  | .event other _ => if other.Matches call then count + 1 else count
  | .clean _ => 0
  | .sendCredentials _ | .limits .. => count

/-- The attempts like this one since the last cleaning. -/
def Call.attempts (call : Call) (actions : List LogAction) : Nat := actions.foldl call.tally 0

def LogAction.time : LogAction → Option Nat
  | .event _ now => some now
  | .clean now => some now
  | .sendCredentials _ | .limits .. => none

/-- The clock of the loop does not go back. -/
def Timely (actions : List LogAction) : Prop :=
  (actions.filterMap LogAction.time).Pairwise (· ≤ ·)

/-- The address of an IPv6 socket has 16 bytes. -/
def Addressed (actions : List LogAction) : Prop :=
  ∀ call now, .event call now ∈ actions → call.remAddress.length = 16

/-- The key of an attempt in the trie. -/
def Call.loginId (call : Call) : Bytes :=
  call.code :: call.report.unmap.remAddress.take call.report.unmap.addrLen

theorem take_unmap (call : Call) (length : call.remAddress.length = 16) :
    call.report.unmap.remAddress.take call.report.unmap.addrLen =
      if call.remAddress.take 12 = mappedPrefix then call.remAddress.drop 12
      else call.remAddress := by
  rw [Report.unmap]
  show (if call.remAddress.take 12 = mappedPrefix then _ else _ : Report).remAddress.take
    (if call.remAddress.take 12 = mappedPrefix then _ else _ : Report).addrLen = _
  split
  case isTrue mapped =>
    show (call.remAddress.drop 12).take 4 = _
    exact take_of_length_le (by simp [length])
  case isFalse plain =>
    show call.remAddress.take 16 = _
    exact take_of_length_le (by simp [length])

/-- A mapped address is shorter than the others in the trie. -/
theorem loginId_eq_iff (length : call.remAddress.length = 16)
    (otherLength : other.remAddress.length = 16) :
    call.loginId = other.loginId ↔
      call.code = other.code ∧ call.remAddress = other.remAddress := by
  rw [Call.loginId, Call.loginId, cons_eq_cons, take_unmap call length,
    take_unmap other otherLength]
  apply and_congr_right
  intro _
  constructor
  case mpr =>
    intro same
    rw [same]
  case mp =>
    intro same
    split at same <;> split at same
    case isTrue.isTrue mapped otherMapped =>
      rw [← take_append_drop 12 call.remAddress, mapped, same, ← otherMapped, take_append_drop]
    case isTrue.isFalse =>
      have lengths := congrArg List.length same
      simp [length, otherLength] at lengths
    case isFalse.isTrue =>
      have lengths := congrArg List.length same
      simp [length, otherLength] at lengths
    case isFalse.isFalse => exact same

/-- What the trie knows of an attempt when it is counted. -/
def Log.counted (log : Log) (loginId : Bytes) : Attempts :=
  match log.limitTrie loginId with
  | none => ⟨1, 0⟩
  | some attempts => { attempts with attemptCount := (attempts.attemptCount + 1) % 2 ^ 32 }

theorem attempt_eq (log : Log) (loginId : Bytes) (now : Nat) :
    log.attempt loginId now =
      if log.ipLimit ≤ (log.counted loginId).attemptCount ∧
          (log.counted loginId).holdbackUntil ≤ now then
        { log with
          limitTrie := update log.limitTrie loginId (some
            { log.counted loginId with holdbackUntil := now + log.throttleHoldback })
          attemptsReached := true }
      else { log with
        limitTrie := update log.limitTrie loginId (some (log.counted loginId)) } :=
  rfl

theorem logEvent_login (login : call.type = .login) :
    (logEvent log call.report now).2 = Log.attempt { log with
      events := log.events ++ [call.report.event log.logCredentials now]
      expectedSerializedSize := log.expectedSerializedSize +
        (call.report.event log.logCredentials now).expectedSize } call.loginId now := by
  rw [logEvent]
  dsimp only
  rw [if_pos (show call.report.type = .login from login)]
  rfl

theorem triggers_iff (login : call.type = .login) :
    log.triggers call now ↔ log.ipLimit ≤ (log.counted call.loginId).attemptCount ∧
      (log.counted call.loginId).holdbackUntil ≤ now := by
  rw [Log.triggers, logEvent_login login, attempt_eq]
  show (if log.ipLimit ≤ (log.counted call.loginId).attemptCount ∧
    (log.counted call.loginId).holdbackUntil ≤ now then _ else _ : Log).attemptsReached = true ↔ _
  split
  case isTrue reached => simp [reached]
  case isFalse below => simp [below]

/-- What the trie knows of an attempt after it. -/
theorem limitTrie_login (login : call.type = .login) :
    (logEvent log call.report now).2.limitTrie = update log.limitTrie call.loginId (some
      { log.counted call.loginId with
        holdbackUntil :=
          if log.triggers call now then now + log.throttleHoldback
          else (log.counted call.loginId).holdbackUntil }) := by
  rw [logEvent_login login, attempt_eq]
  simp only [triggers_iff login]
  show (if log.ipLimit ≤ (log.counted call.loginId).attemptCount ∧
    (log.counted call.loginId).holdbackUntil ≤ now then _ else _ : Log).limitTrie = _
  split
  case isTrue reached => rfl
  case isFalse below => rfl

theorem limitTrie_other (quiet : call.type ≠ .login) :
    (logEvent log call.report now).2.limitTrie = log.limitTrie := by
  rw [logEvent]
  dsimp only
  rw [if_neg (show call.report.type ≠ .login from quiet)]

/-- A trigger of an attempt like this one holds back the next ones. -/
def Call.hold (call : Call) (log : Log) : LogAction → List Nat
  | .event other now =>
    if other.Matches call ∧ log.triggers other now then [now + log.throttleHoldback] else []
  | .clean _ | .sendCredentials _ | .limits .. => []

/-- The times until which the triggers of attempts like this one hold back. -/
def Call.held (call : Call) (log : Log) : List LogAction → List Nat
  | [] => []
  | action :: rest => call.hold log action ++ call.held (log.step action) rest

theorem held_append (call : Call) (log : Log) (before after : List LogAction) :
    call.held log (before ++ after) = call.held log before ++ call.held (log.run before) after := by
  induction before generalizing log with
  | nil => rfl
  | cons action rest ih =>
    rw [cons_append, Call.held, Call.held, ih, append_assoc]
    rfl

theorem run_snoc (log : Log) (actions : List LogAction) (action : LogAction) :
    log.run (actions ++ [action]) = (log.run actions).step action := by
  rw [Log.run, foldl_append]
  rfl

theorem attempts_snoc (call : Call) (actions : List LogAction) (action : LogAction) :
    call.attempts (actions ++ [action]) = call.tally (call.attempts actions) action := by
  rw [Call.attempts, foldl_append]
  rfl

theorem held_snoc (call : Call) (log : Log) (actions : List LogAction) (action : LogAction) :
    call.held log (actions ++ [action]) =
      call.held log actions ++ call.hold (log.run actions) action := by
  rw [held_append, Call.held, Call.held, append_nil]

/-- The trie knows the attempts since the last cleaning and the last time to wait for. -/
structure Log.Records (log : Log) (call : Call) (count : Nat) (times held : List Nat) : Prop where
  count : (log.counted call.loginId).attemptCount = (count + 1) % 2 ^ 32
  holdback : (log.counted call.loginId).holdbackUntil = 0 ∨
    (log.counted call.loginId).holdbackUntil ∈ held
  expired : ∀ now, (∀ time ∈ times, time ≤ now) →
    (log.counted call.loginId).holdbackUntil ≤ now → ∀ time ∈ held, time ≤ now

variable {count : Nat} {times held : List Nat}

theorem Log.Records.of_trie {next : Log} (records : log.Records call count times held)
    (trie : next.limitTrie call.loginId = log.limitTrie call.loginId) {more : List Nat} :
    next.Records call count (times ++ more) (held ++ []) := by
  have same : next.counted call.loginId = log.counted call.loginId := by
    rw [Log.counted, Log.counted, trie]
  rw [append_nil]
  constructor
  case count => rw [same, records.count]
  case holdback => rw [same]; exact records.holdback
  case expired =>
    intro now late waited
    rw [same] at waited
    exact records.expired now (fun time member => late time (by simp [member])) waited

section

variable (records : log.Records call count times held)
include records

/-- An attempt like this one is counted, and a trigger sets the time to wait for. -/
theorem Log.Records.login (matched : other.Matches call) (same : other.loginId = call.loginId)
    (now : Nat) :
    (log.step (.event other now)).Records call (count + 1) (times ++ [now])
      (held ++ call.hold log (.event other now)) := by
  have login := matched.1
  have counted : (log.step (.event other now)).counted call.loginId =
      ⟨(count + 2) % 2 ^ 32, if log.triggers other now then now + log.throttleHoldback
        else (log.counted call.loginId).holdbackUntil⟩ := by
    rw [Log.counted, Log.step, limitTrie_login login, same, update_self]
    have counted := records.count
    simp only [counted]
    congr 1
    omega
  simp only [Call.hold, matched, true_and]
  constructor
  case count => rw [counted]
  case holdback =>
    rw [counted]
    by_cases triggers : log.triggers other now
    · simp [triggers]
    · simpa [triggers] using records.holdback
  case expired =>
    intro later late waited
    rw [counted] at waited
    by_cases triggers : log.triggers other now
    · have reached := (triggers_iff login).mp triggers
      rw [same] at reached
      have passed := late now (by simp)
      simp only [triggers, if_true] at waited ⊢
      have before := records.expired later (fun time member => late time (by simp [member]))
        (le_trans reached.2 passed)
      simpa [or_imp, forall_and, waited] using before
    · simp only [triggers, if_false] at waited ⊢
      have before := records.expired later (fun time member => late time (by simp [member]))
        waited
      simpa using before

/-- A cleaning keeps a time that is still ahead. -/
theorem Log.Records.clean (now : Nat) :
    (log.step (.clean now)).Records call 0 (times ++ [now]) (held ++ []) := by
  have trie : (log.step (.clean now)).limitTrie call.loginId =
      (log.limitTrie call.loginId).bind fun attempts =>
        if now < attempts.holdbackUntil then some ⟨0, attempts.holdbackUntil⟩ else none := rfl
  have counted : (log.step (.clean now)).counted call.loginId =
      ⟨1, if now < (log.counted call.loginId).holdbackUntil
        then (log.counted call.loginId).holdbackUntil else 0⟩ := by
    rw [Log.counted, trie, Log.counted]
    cases log.limitTrie call.loginId with
    | none => simp
    | some attempts =>
      by_cases ahead : now < attempts.holdbackUntil
      · simp [ahead]
      · simp [ahead]
  rw [append_nil]
  constructor
  case count => simp [counted]
  case holdback =>
    rw [counted]
    by_cases ahead : now < (log.counted call.loginId).holdbackUntil
    · simpa [ahead] using records.holdback
    · simp [ahead]
  case expired =>
    intro later late waited
    rw [counted] at waited
    apply records.expired later fun time member => late time (by simp [member])
    have passed := late now (by simp)
    by_cases ahead : now < (log.counted call.loginId).holdbackUntil
    · simpa [ahead] using waited
    · omega

theorem Log.Records.step (length : call.remAddress.length = 16) (action : LogAction)
    (addressed : ∀ other now, action = .event other now → other.remAddress.length = 16) :
    (log.step action).Records call (call.tally count action)
      (times ++ action.time.toList) (held ++ call.hold log action) := by
  cases action with
  | event other now =>
    have same := loginId_eq_iff (addressed other now rfl) length
    by_cases matched : other.Matches call
    · rw [Call.tally, if_pos matched]
      exact records.login matched (same.mpr matched.2) now
    · rw [Call.tally, if_neg matched, Call.hold, if_neg fun both => matched both.1]
      apply records.of_trie
      by_cases login : other.type = .login
      · rw [Log.step, limitTrie_login login, update_of_ne]
        intro equal
        exact matched ⟨login, same.mp equal.symm⟩
      · rw [Log.step, limitTrie_other login]
  | clean now => exact records.clean now
  | sendCredentials send => exact @Log.Records.of_trie _ _ _ _ _ (log.step _) records rfl []
  | limits maxSize maxAttempts throttleHoldback =>
    exact @Log.Records.of_trie _ _ _ _ _ (log.step _) records rfl []

end

theorem run_records (length : call.remAddress.length = 16) (addressed : Addressed actions) :
    (logAlloc.run actions).Records call (call.attempts actions) (actions.filterMap LogAction.time)
      (call.held logAlloc actions) := by
  induction actions using List.reverseRecOn with
  | nil => exact ⟨rfl, .inl rfl, by simp [Call.held]⟩
  | append_singleton actions action ih =>
    have before := ih fun other now member => addressed other now (by simp [member])
    have next := before.step length action fun other now same =>
      addressed other now (by simp [same])
    rw [run_snoc, attempts_snoc, held_snoc, filterMap_append]
    cases time : action.time <;> simpa [time] using next

/-- `log_wrapper` cleans a log that has to be sent, before anything else happens to it. -/
def Cleaned (log : Log) : List LogAction → Prop
  | [] => True
  | action :: rest =>
    (∀ call now, action = .event call now → (logEvent log call.report now).1 = .forceSend →
      ∃ time, rest.head? = some (.clean time)) ∧ Cleaned (log.step action) rest

theorem forced_or_small (log : Log) (call : Call) (now : Nat) :
    (logEvent log call.report now).1 = .forceSend ∨
      (logEvent log call.report now).2.expectedSerializedSize < 2 ^ 32 := by
  have status : (logEvent log call.report now).1 = (logEvent log call.report now).2.status := rfl
  rw [status, Log.status]
  split
  case isTrue large => exact .inl rfl
  case isFalse small =>
    have bound := Nat.mod_lt (2 * (logEvent log call.report now).2.sizeLimit)
      (show 0 < 2 ^ 32 by decide)
    exact .inr (by omega)

/-- Between two actions the log is small. -/
theorem Cleaned.small (cleaned : Cleaned log actions)
    (start : log.expectedSerializedSize < 2 ^ 32 ∨ ∃ time, actions.head? = some (.clean time)) :
    (log.run actions).expectedSerializedSize < 2 ^ 32 := by
  induction actions generalizing log with
  | nil => simpa [Log.run] using start
  | cons action rest ih =>
    obtain ⟨forced, later⟩ := cleaned
    apply ih later
    cases action with
    | event call now =>
      cases forced_or_small log call now with
      | inl send => exact .inr (forced call now rfl send)
      | inr small => exact .inl small
    | clean now => exact .inl (show 0 < 2 ^ 32 by decide)
    | sendCredentials send => exact .inl (by simpa [Log.step] using start)
    | limits maxSize maxAttempts throttleHoldback => exact .inl (by simpa [Log.step] using start)

theorem size_logEvent (log : Log) (call : Call) (now : Nat) :
    log.expectedSerializedSize + 10 ≤
      (logEvent log call.report now).2.expectedSerializedSize := by
  have size : (logEvent log call.report now).2.expectedSerializedSize =
      log.expectedSerializedSize +
        (call.report.event log.logCredentials now).expectedSize := by
    rw [logEvent]
    dsimp only
    split
    · rw [attempt_eq]
      split <;> rfl
    · rfl
  rw [size, LogEvent.expectedSize, eventHeaderSize]
  omega

/-- Each attempt adds its header to the message. -/
theorem attempts_size (call : Call) (actions : List LogAction) :
    10 * call.attempts actions ≤ (logAlloc.run actions).expectedSerializedSize := by
  induction actions using List.reverseRecOn with
  | nil => exact Nat.zero_le _
  | append_singleton actions action ih =>
    rw [run_snoc, attempts_snoc]
    cases action with
    | event other now =>
      have grown := size_logEvent (logAlloc.run actions) other now
      rw [Call.tally, Log.step]
      split <;> omega
    | clean now => exact Nat.zero_le _
    | sendCredentials send => exact ih
    | limits maxSize maxAttempts throttleHoldback => exact ih

/-- In every run of the log an attempt that triggers comes after the holdback of each earlier
trigger for the same address and server. An attempt that reaches the limit and is not held back
does trigger, as long as the counter has not run over, and it never does in the plugin. -/
theorem attempts_throttled (actions : List LogAction) (call : Call) (now : Nat)
    (login : call.type = .login) (timely : Timely (actions ++ [.event call now]))
    (addressed : Addressed (actions ++ [.event call now])) :
    ((logAlloc.run actions).triggers call now →
      ∀ time ∈ call.held logAlloc actions, time ≤ now) ∧
    ((logAlloc.run actions).ipLimit ≤ call.attempts (actions ++ [.event call now]) →
      call.attempts (actions ++ [.event call now]) < 2 ^ 32 →
      (∀ time ∈ call.held logAlloc actions, time ≤ now) →
      (logAlloc.run actions).triggers call now) ∧
    (Cleaned logAlloc actions → call.attempts (actions ++ [.event call now]) < 2 ^ 32) := by
  have length := addressed call now (by simp)
  have earlier : Addressed actions := fun other time member => addressed other time (by simp [member])
  have records := run_records length earlier
  have matched : call.Matches call := ⟨login, rfl, rfl⟩
  have attempts : call.attempts (actions ++ [.event call now]) = call.attempts actions + 1 := by
    rw [attempts_snoc, Call.tally, if_pos matched]
  rw [triggers_iff login, records.count, attempts]
  refine ⟨?_, ?_, ?_⟩
  · intro reached
    rw [Timely, filterMap_append, pairwise_append] at timely
    exact records.expired now (fun time member => timely.2.2 time member now (by
      simp [LogAction.time])) reached.2
  · intro enough few free
    rw [Nat.mod_eq_of_lt few]
    refine ⟨enough, ?_⟩
    cases records.holdback with
    | inl none => omega
    | inr waits => exact free _ waits
  · intro cleaned
    have small := cleaned.small (.inl (show 0 < 2 ^ 32 by decide))
    have size := attempts_size call actions
    omega

/-- A login to the fake telnet from one address. -/
def sampleLogin : Call :=
  ⟨84, List.replicate 16 7, List.replicate 16 9, 4000, .login, none, some [117], some [112]⟩

/-- The fifth attempt triggers. The log is cleaned, and four more attempts follow. -/
def heldBack : List LogAction :=
  List.replicate 5 (.event sampleLogin 10) ++
    .clean 60000 :: List.replicate 4 (.event sampleLogin 60001)

theorem heldBack_addressed (time : Nat) : Addressed (heldBack ++ [.event sampleLogin time]) := by
  intro call now member
  have same : call = sampleLogin := by
    simp only [heldBack, mem_append, mem_cons, mem_replicate, LogAction.event.injEq, reduceCtorEq,
      false_or] at member
    tauto
  rw [same]
  rfl

/-- The next attempt reaches the limit again, and it triggers when the holdback is over. -/
theorem attempts_throttled_cleaned :
    sampleLogin.held logAlloc heldBack = [120010] ∧
    ¬(logAlloc.run heldBack).triggers sampleLogin 60002 ∧
    (logAlloc.run heldBack).triggers sampleLogin 120010 := by
  have held : sampleLogin.held logAlloc heldBack = [120010] := by decide +kernel
  have early := attempts_throttled heldBack sampleLogin 60002 rfl (by unfold Timely; decide)
    (heldBack_addressed 60002)
  have late := attempts_throttled heldBack sampleLogin 120010 rfl (by unfold Timely; decide)
    (heldBack_addressed 120010)
  rw [held] at early late
  refine ⟨held, fun triggers => ?_, late.2.1 (by decide +kernel) (by decide +kernel)
    (by decide)⟩
  exact absurd (early.1 triggers 120010 mem_cons_self) (by decide)

end Ucollect.Fake
