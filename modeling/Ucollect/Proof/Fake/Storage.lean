import Ucollect.Construction.Fake.Log
import Ucollect.Proof.Activation.Messages

/-
The server reads the events that the log has kept.
-/

namespace Ucollect.Fake
open Library Core List

variable {event : LogEvent} {call : Call} {now : Nat} {credentials : Bool}

/-- The types of the data promise this, and the strings are shorter than 4 GiB. -/
structure Call.Fits (call : Call) : Prop where
  remAddress : call.remAddress.length = 16
  locAddress : call.locAddress.length = 16
  port : call.remPort < 2 ^ 16
  short : ∀ content ∈ call.reason.toList ++ call.username.toList ++ call.password.toList,
    content.length < 2 ^ 32

/-- The infos that are kept have their contents. -/
def Call.kept (call : Call) (credentials : Bool) : List EventInfo :=
  (call.reason.map (EventInfo.mk .reason)).toList ++
    if credentials then (call.username.map (EventInfo.mk .name)).toList ++
      (call.password.map (EventInfo.mk .password)).toList
    else []

/-- The credentials stand behind the reason, so the ones that are left out are never counted. -/
theorem copyInfos_wrapper (call : Call) (credentials : Bool) :
    copyInfos credentials call.report.infos = (call.kept credentials).map some ∧
      countInfos credentials call.report.infos = (call.kept credentials).length := by
  rw [Call.report, Call.kept]
  cases credentials <;> cases call.reason <;> cases call.username <;> cases call.password <;>
    exact ⟨rfl, rfl⟩

/-- The event is ready to be rendered. -/
structure LogEvent.Formed (event : LogEvent) (infos : List EventInfo) : Prop where
  extraInfo : event.extraInfo = infos.map some
  infoCount : event.infoCount = infos.length
  few : infos.length < 16
  length : event.addrLen = 4 ∨ event.addrLen = 16
  remAddr : event.remAddr.length = event.addrLen
  locAddr : event.locAddr.length = event.addrLen
  port : event.remPort < 2 ^ 16
  short : ∀ info ∈ infos, info.type ≠ .last ∧ info.content.length < 2 ^ 32

def infoBytes (info : EventInfo) : Bytes :=
  info.type.code.toUInt8 :: (word32 info.content.length ++ info.content)

def eventBytes (now : Nat) (infos : List EventInfo) (event : LogEvent) : Bytes :=
  event.header now ++ (event.remAddr ++ (event.locAddr ++ infos.flatMap infoBytes))

/-- The call is kept as an event that can be rendered. -/
theorem Call.Fits.formed (fits : call.Fits) (credentials : Bool) (now : Nat) :
    (call.report.event credentials now).Formed (call.kept credentials) := by
  obtain ⟨copied, counted⟩ := copyInfos_wrapper call credentials
  constructor
  case extraInfo => exact copied
  case infoCount => exact counted
  case few =>
    rw [Call.kept]
    cases credentials <;> cases call.reason <;> cases call.username <;> cases call.password <;>
      simp
  case length =>
    show call.report.unmap.addrLen = 4 ∨ call.report.unmap.addrLen = 16
    rw [Report.unmap]
    split
    · exact .inl rfl
    · exact .inr rfl
  case remAddr =>
    rw [Report.event, Report.unmap]
    split
    · show ((call.remAddress.drop 12).take 4).length = 4
      rw [length_take, length_drop, fits.remAddress]
      rfl
    · show (call.remAddress.take 16).length = 16
      rw [length_take, fits.remAddress]
      rfl
  case locAddr =>
    rw [Report.event, Report.unmap]
    split
    · show ((call.locAddress.drop 12).take 4).length = 4
      rw [length_take, length_drop, fits.locAddress]
      rfl
    · show (call.locAddress.take 16).length = 16
      rw [length_take, fits.locAddress]
      rfl
  case port => exact fits.port
  case short =>
    have kept : ∀ info ∈ call.kept credentials, info.type ≠ .last ∧
        info.content ∈ call.reason.toList ++ call.username.toList ++ call.password.toList := by
      rw [Call.kept]
      cases credentials <;> cases call.reason <;> cases call.username <;>
        cases call.password <;> simp
    intro info member
    obtain ⟨type, content⟩ := kept info member
    exact ⟨type, fits.short _ content⟩

variable {output : Output}

theorem put_enough {bytes : Bytes} (enough : bytes.length ≤ output.room) :
    output.put bytes = .ok ⟨output.written ++ bytes, output.room - bytes.length⟩ := by
  rw [Output.put, if_neg (by omega)]

/-- The length of the string loses its high bits, and so does the string. -/
def EventInfo.truncated (info : EventInfo) : EventInfo :=
  { info with content := info.content.take (info.content.length % 2 ^ 32) }

theorem length_infoBytes (info : EventInfo) : (infoBytes info).length = 5 + info.content.length := by
  rw [infoBytes, length_cons, length_append]
  show 4 + info.content.length + 1 = _
  omega

/-- An info goes to the output with its type and its length. -/
theorem dumpInfo_truncated {output : Output} {info : EventInfo} (type : info.type ≠ .last)
    (enough : (infoBytes info.truncated).length ≤ output.room) :
    dumpInfo output (some info) = .ok ⟨output.written ++ infoBytes info.truncated,
      output.room - (infoBytes info.truncated).length⟩ := by
  have size := length_infoBytes info.truncated
  rw [dumpInfo, if_neg (by omega)]
  show (if info.type = .last then _ else _ : Except Abort Output) = _
  rw [if_neg type, putOutput, put_enough (by show 1 ≤ output.room; omega)]
  show ((renderCommand 's' (.string info.truncated.content) _).mapError _ : Except Abort Output) = _
  rw [renderCommand, if_pos rfl]
  rw [put_enough (by show 4 ≤ output.room - 1; omega)]
  show ((Output.put _ _).mapError _ : Except Abort Output) = _
  rw [put_enough (by
    show info.truncated.content.length ≤ output.room - 1 - 4
    omega)]
  show Except.ok (Output.mk _ _) = _
  congr 2
  · rw [infoBytes, append_assoc, append_assoc]
    rfl
  · show output.room - 1 - 4 - info.truncated.content.length = _
    omega

theorem dumpInfo_some {info : EventInfo} (type : info.type ≠ .last)
    (short : info.content.length < 2 ^ 32) (enough : (infoBytes info).length ≤ output.room) :
    dumpInfo output (some info) =
      .ok ⟨output.written ++ infoBytes info, output.room - (infoBytes info).length⟩ := by
  have whole : info.truncated = info := by
    rw [EventInfo.truncated, Nat.mod_eq_of_lt short, take_length]
  have dumped := @dumpInfo_truncated output info type (by rwa [whole])
  rwa [whole] at dumped

theorem dumpInfos_some {infos : List EventInfo}
    (short : ∀ info ∈ infos, info.type ≠ .last ∧ info.content.length < 2 ^ 32)
    (enough : (infos.flatMap infoBytes).length ≤ output.room) :
    (infos.map some).foldlM dumpInfo output =
      .ok ⟨output.written ++ infos.flatMap infoBytes,
        output.room - (infos.flatMap infoBytes).length⟩ := by
  induction infos generalizing output with
  | nil =>
    rw [map_nil, foldlM_nil, flatMap_nil, append_nil]
    rfl
  | cons info infos ih =>
    rw [flatMap_cons, length_append] at enough
    obtain ⟨type, small⟩ := short info mem_cons_self
    rw [map_cons, foldlM_cons, dumpInfo_some type small (by omega)]
    refine (ih (fun other member => short other (mem_cons_of_mem _ member)) ?_).trans ?_
    · show _ ≤ output.room - (infoBytes info).length
      omega
    · rw [flatMap_cons, append_assoc, length_append, Nat.sub_sub]

/-- An event goes to the output when there is room for it. -/
theorem dumpEvent_formed {infos : List EventInfo} (formed : event.Formed infos)
    (young : now < event.timestamp + 2 ^ 32)
    (enough : (eventBytes now infos event).length ≤ output.room) :
    dumpEvent now output event =
      .ok ⟨output.written ++ eventBytes now infos event,
        output.room - (eventBytes now infos event).length⟩ := by
  have size : (eventBytes now infos event).length =
      (event.header now ++ (event.remAddr ++ event.locAddr)).length +
        (infos.flatMap infoBytes).length := by
    rw [eventBytes]
    simp only [length_append]
    omega
  rw [dumpEvent, if_neg (by omega), if_neg (not_not_intro formed.length), if_neg (by
    rw [formed.infoCount]
    exact not_le_of_gt formed.few), putOutput, put_enough (by omega)]
  show event.extraInfo.foldlM dumpInfo _ = _
  rw [formed.extraInfo]
  refine (dumpInfos_some formed.short ?_).trans ?_
  · show _ ≤ output.room - _
    omega
  · rw [size, Nat.sub_sub, eventBytes]
    simp only [append_assoc]

end Ucollect.Fake

/-
A message of the log is decoded to the events since the last message.
-/

namespace Ucollect.Fake
open Library Core List

variable {now : Nat}

/-- These are the infos that the server puts together. -/
def gatherInfos (start : LogInfos) (infos : List EventInfo) : LogInfos :=
  infos.foldl (fun gathered info => gathered.put info.type.code info.content) start

theorem typeCode_small (type : InfoType) : type.code.toUInt8.toNat = type.code := by
  cases type <;> rfl

theorem storeInfos_append {infos : List EventInfo} (start : LogInfos) (rest : Bytes)
    (short : ∀ info ∈ infos, info.type ≠ .last ∧ info.content.length < 2 ^ 32) :
    storeInfos infos.length start (infos.flatMap infoBytes ++ rest) =
      some (gatherInfos start infos, rest) := by
  induction infos generalizing start with
  | nil => rfl
  | cons info infos ih =>
    obtain ⟨-, small⟩ := short info mem_cons_self
    rw [length_cons, storeInfos, flatMap_cons, append_assoc, infoBytes, cons_append]
    refine (reads_next (readNumber_byte _ _)).trans ?_
    refine (reads_next (Activation.extractString_append _ small)).trans ?_
    rw [typeCode_small]
    exact ih _ fun other member => short other (mem_cons_of_mem _ member)

/-- The server reads this row. -/
def eventRow (now : Nat) (infos : List EventInfo) (event : LogEvent) : LogRow where
  age := now - event.timestamp
  type := event.type
  remAddress := event.remAddr
  locAddress := some event.locAddr
  remPort := some event.remPort
  infos := gatherInfos ⟨none, none, none⟩ infos
  code := event.code.toNat

theorem eventTypes_code (type : EventType) : eventTypes[type.code.toUInt8.toNat]? = some type := by
  cases type <;> rfl

theorem storeLog_eventBytes {version : Nat} {event : LogEvent} {infos : List EventInfo}
    (current : 1 < version) (formed : event.Formed infos)
    (past : event.timestamp ≤ now) (young : now < event.timestamp + 2 ^ 32) (rest : Bytes) :
    storeLog version (eventBytes now infos event ++ rest) = some (eventRow now infos event, rest) := by
  have age : (now + 2 ^ 64 - event.timestamp) % 2 ^ 64 = now - event.timestamp := by omega
  have count : event.infoCount.toUInt8.toNat = infos.length := by
    rw [formed.infoCount, Nat.toUInt8_eq, UInt8.toNat_ofNat', Nat.mod_eq_of_lt]
    exact formed.few.trans (by decide)
  have family : familyLengths[(if event.addrLen = 4 then 0 else 1 : UInt8).toNat]? =
      some event.addrLen := by
    rcases formed.length with four | sixteen
    · rw [four]
      rfl
    · rw [sixteen]
      rfl
  have port : sinceVersion2 version (readNumber 2) (word16 event.remPort ++
      (event.remAddr ++ (event.locAddr ++ (infos.flatMap infoBytes ++ rest)))) =
        some (some event.remPort,
          event.remAddr ++ (event.locAddr ++ (infos.flatMap infoBytes ++ rest))) := by
    rw [sinceVersion2, if_neg (by omega), readNumber_word16 _ formed.port]
    rfl
  have near : sinceVersion2 version (cut event.addrLen)
      (event.locAddr ++ (infos.flatMap infoBytes ++ rest)) =
        some (some event.locAddr, infos.flatMap infoBytes ++ rest) := by
    rw [sinceVersion2, if_neg (by omega), cut_append _ formed.locAddr]
    rfl
  have gathered := storeInfos_append ⟨none, none, none⟩ rest formed.short
  rw [← count] at gathered
  rw [storeLog, eventBytes, LogEvent.header, age]
  simp only [append_assoc, cons_append, nil_append]
  refine (reads_next (readNumber_word32 _ (by omega))).trans ?_
  refine (reads_next (readNumber_byte _ _)).trans ?_
  refine (reads_next (readNumber_byte _ _)).trans ?_
  refine (reads_next (readNumber_byte _ _)).trans ?_
  refine (reads_next (readNumber_byte _ _)).trans ?_
  refine (reads_next port).trans ?_
  refine (reads_next (eventTypes_code _)).trans ?_
  refine (reads_next family).trans ?_
  refine (reads_next (cut_append _ formed.remAddr)).trans ?_
  refine (reads_next near).trans ?_
  exact (reads_next gathered).trans rfl

/-- A call with the switch and the time when it was logged. -/
structure Logged where
  credentials : Bool
  call : Call
  time : Nat

def Logged.event (logged : Logged) : LogEvent :=
  logged.call.report.event logged.credentials logged.time

def Logged.infos (logged : Logged) : List EventInfo := logged.call.kept logged.credentials

/-- This is what the server is to store. -/
def Logged.row (now : Nat) (logged : Logged) : LogRow where
  age := now - logged.time
  type := logged.call.type
  remAddress := if logged.call.remAddress.take 12 = mappedPrefix then
    logged.call.remAddress.drop 12 else logged.call.remAddress
  locAddress := some (if logged.call.remAddress.take 12 = mappedPrefix then
    logged.call.locAddress.drop 12 else logged.call.locAddress)
  remPort := some logged.call.remPort
  infos := ⟨if logged.credentials then logged.call.username else none,
    if logged.credentials then logged.call.password else none, logged.call.reason⟩
  code := logged.call.code.toNat

/-- The switch, and the calls since the log was cleaned. -/
def track (state : Bool × List Logged) : LogAction → Bool × List Logged
  | .event call now => (state.1, state.2 ++ [⟨state.1, call, now⟩])
  | .sendCredentials send => (send, state.2)
  | .limits _ _ _ => state
  | .clean _ => (state.1, [])

def logged (actions : List LogAction) : List Logged := (actions.foldl track (false, [])).2

variable {call : Call}

/-- A mapped address is kept as one of version 4. -/
theorem unmap_mapped (mapped : call.remAddress.take 12 = mappedPrefix) :
    call.report.unmap = { call.report with
      addrLen := 4
      remAddress := call.remAddress.drop 12
      locAddress := call.locAddress.drop 12 } := by
  rw [Report.unmap, if_pos (by exact mapped)]
  rfl

theorem unmap_plain (plain : call.remAddress.take 12 ≠ mappedPrefix) :
    call.report.unmap = call.report := by
  rw [Report.unmap, if_neg (by exact plain)]

theorem event_addresses (fits : call.Fits) (credentials : Bool) (now : Nat) :
    (call.report.event credentials now).remAddr = call.report.unmap.remAddress ∧
      (call.report.event credentials now).locAddr = call.report.unmap.locAddress := by
  rw [Report.event]
  by_cases mapped : call.remAddress.take 12 = mappedPrefix
  · rw [unmap_mapped mapped]
    constructor
    · apply take_of_length_le
      rw [length_drop, fits.remAddress]
    · apply take_of_length_le
      rw [length_drop, fits.locAddress]
  · rw [unmap_plain mapped]
    exact ⟨take_of_length_le fits.remAddress.le, take_of_length_le fits.locAddress.le⟩

variable {entry : Logged}

/-- The row of a kept event is the one of its call. -/
theorem eventRow_logged (fits : entry.call.Fits) :
    eventRow now entry.infos entry.event = entry.row now := by
  have infos : gatherInfos ⟨none, none, none⟩ entry.infos = (entry.row now).infos := by
    rw [Logged.infos, Call.kept, Logged.row]
    cases entry.credentials <;> cases entry.call.reason <;> cases entry.call.username <;>
      cases entry.call.password <;> rfl
  obtain ⟨remote, near⟩ := event_addresses fits entry.credentials entry.time
  rw [eventRow, infos, Logged.event, remote, near, Logged.row]
  by_cases mapped : entry.call.remAddress.take 12 = mappedPrefix
  · rw [unmap_mapped mapped, if_pos mapped, if_pos mapped]
    rfl
  · rw [unmap_plain mapped, if_neg mapped, if_neg mapped]
    rfl

/-- These are the bytes of a kept event. -/
def Logged.bytes (now : Nat) (entry : Logged) : Bytes := eventBytes now entry.infos entry.event

theorem sum_infoSize (infos : List EventInfo) :
    ((infos.map some).map infoSize).sum = (infos.flatMap infoBytes).length := by
  induction infos with
  | nil => rfl
  | cons info infos ih =>
    rw [map_cons, map_cons, sum_cons, ih, flatMap_cons, length_append]
    exact congrArg (· + _) (length_infoBytes info).symm

/-- The size that was counted at the call is the size of the bytes. -/
theorem bytes_expected (fits : entry.call.Fits) :
    (entry.bytes now).length = entry.event.expectedSize := by
  have formed := fits.formed entry.credentials entry.time
  have header : (entry.event.header now).length = 10 := rfl
  rw [Logged.bytes, eventBytes, LogEvent.expectedSize, Logged.event, formed.extraInfo, sum_infoSize,
    length_append, length_append, length_append, formed.remAddr, formed.locAddr]
  rw [Logged.event] at header
  rw [header, eventHeaderSize, Logged.infos]
  omega

/-- The events go to the output one after another. -/
theorem dumpEvents_formed {entries : List Logged} (fits : ∀ entry ∈ entries, entry.call.Fits)
    (young : ∀ entry ∈ entries, now < entry.time + 2 ^ 32) {output : Output}
    (enough : (entries.flatMap (Logged.bytes now)).length ≤ output.room) :
    (entries.map Logged.event).foldlM (dumpEvent now) output =
      .ok ⟨output.written ++ entries.flatMap (Logged.bytes now),
        output.room - (entries.flatMap (Logged.bytes now)).length⟩ := by
  induction entries generalizing output with
  | nil =>
    rw [map_nil, foldlM_nil, flatMap_nil, append_nil]
    rfl
  | cons entry entries ih =>
    rw [flatMap_cons, length_append] at enough
    have formed := (fits entry mem_cons_self).formed entry.credentials entry.time
    have dumped : dumpEvent now output entry.event =
        .ok ⟨output.written ++ entry.bytes now, output.room - (entry.bytes now).length⟩ :=
      dumpEvent_formed formed (young entry mem_cons_self)
        (Nat.le_trans (Nat.le_add_right _ _) enough)
    rw [map_cons, foldlM_cons, dumped]
    refine (ih (fun other member => fits other (mem_cons_of_mem _ member))
      (fun other member => young other (mem_cons_of_mem _ member)) ?_).trans ?_
    · show _ ≤ output.room - (entry.bytes now).length
      omega
    · rw [flatMap_cons, append_assoc, length_append, Nat.sub_sub]

/-- The log holds the calls since it was cleaned. -/
structure Log.Holds (log : Log) (state : Bool × List Logged) : Prop where
  events : log.events = state.2.map Logged.event
  size : log.expectedSerializedSize = (state.2.map fun entry => entry.event.expectedSize).sum
  credentials : log.logCredentials = state.1

theorem attempt_kept (log : Log) (loginId : Bytes) (now : Nat) :
    (log.attempt loginId now).events = log.events ∧
      (log.attempt loginId now).expectedSerializedSize = log.expectedSerializedSize ∧
      (log.attempt loginId now).logCredentials = log.logCredentials := by
  rw [Log.attempt]
  cases log.limitTrie loginId <;> dsimp only <;> split <;> exact ⟨rfl, rfl, rfl⟩

variable {state : Bool × List Logged}

/-- The call is added with the switch of its time. -/
theorem logEvent_holds {log : Log} (holds : log.Holds state) (call : Call) (now : Nat) :
    (logEvent log call.report now).2.Holds (state.1, state.2 ++ [⟨state.1, call, now⟩]) := by
  have added : ∀ added : Log,
      added.events = log.events ++ [call.report.event log.logCredentials now] →
      added.expectedSerializedSize = log.expectedSerializedSize +
        (call.report.event log.logCredentials now).expectedSize →
      added.logCredentials = log.logCredentials →
      added.Holds (state.1, state.2 ++ [⟨state.1, call, now⟩]) := by
    intro added events size credentials
    constructor
    case events =>
      rw [events, holds.events, holds.credentials, map_append]
      rfl
    case size =>
      rw [size, holds.size, holds.credentials, map_append, sum_append, map_singleton, sum_singleton]
      rfl
    case credentials => exact credentials.trans holds.credentials
  rw [logEvent]
  split
  · obtain ⟨events, size, credentials⟩ := attempt_kept _ _ _
    exact added _ events size credentials
  · exact added _ rfl rfl rfl

theorem step_holds {log : Log} (holds : log.Holds state) (action : LogAction) :
    (log.step action).Holds (track state action) := by
  cases action with
  | event call now => exact logEvent_holds holds call now
  | sendCredentials send => exact ⟨holds.events, holds.size, rfl⟩
  | limits maxSize maxAttempts throttleHoldback =>
    exact ⟨holds.events, holds.size, holds.credentials⟩
  | clean now => exact ⟨rfl, rfl, holds.credentials⟩

theorem run_holds {log : Log} (holds : log.Holds state) (actions : List LogAction) :
    (log.run actions).Holds (actions.foldl track state) := by
  induction actions generalizing log state with
  | nil => exact holds
  | cons action actions ih => exact ih (step_holds holds action)

/-- A call in the log was made. -/
theorem mem_logged {actions : List LogAction} (member : entry ∈ (actions.foldl track state).2) :
    entry ∈ state.2 ∨ .event entry.call entry.time ∈ actions := by
  induction actions generalizing state with
  | nil => exact .inl member
  | cons action actions ih =>
    rcases ih member with earlier | later
    · cases action with
      | event call now =>
        rcases mem_append.mp earlier with known | added
        · exact .inl known
        · cases mem_singleton.mp added
          exact .inr mem_cons_self
      | sendCredentials send => exact .inl earlier
      | limits maxSize maxAttempts throttleHoldback => exact .inl earlier
      | clean now => cases earlier
    · exact .inr (mem_cons_of_mem _ later)

/-- The server stores the calls since the log was cleaned, each with the credentials that the
switch let through. A log without them has no message. -/
theorem logs_stored (actions : List LogAction) (now version : Nat) (current : 1 < version)
    (fits : ∀ call time, LogAction.event call time ∈ actions → call.Fits)
    (young : ∀ entry ∈ logged actions, entry.time ≤ now ∧ now < entry.time + 2 ^ 32) :
    (logged actions = [] → logDump (logAlloc.run actions) now = .ok none) ∧
      (logged actions ≠ [] → ∃ message,
        logDump (logAlloc.run actions) now =
            .ok (some (message, (logAlloc.run actions).expectedSerializedSize + 1)) ∧
          message.length = (logAlloc.run actions).expectedSerializedSize + 1 ∧
          message.head? = some (letter 'L') ∧
          storeLogs version (message.drop 1) = some ((logged actions).map (Logged.row now))) := by
  have holds : (logAlloc.run actions).Holds (actions.foldl track (false, [])) :=
    run_holds ⟨rfl, rfl, rfl⟩ actions
  have known : ∀ entry ∈ logged actions, entry.call.Fits := by
    intro entry member
    rcases mem_logged member with none | made
    · cases none
    · exact fits _ _ made
  have size : (logAlloc.run actions).expectedSerializedSize =
      ((logged actions).flatMap (Logged.bytes now)).length := by
    rw [holds.size, length_flatMap]
    exact congrArg List.sum
      (map_congr_left fun entry member => (bytes_expected (known entry member)).symm)
  constructor
  · intro empty
    rw [logDump, if_pos (by rw [size, empty]; rfl)]
  · intro some
    have filled : ∀ entry ∈ logged actions, entry.bytes now ≠ [] := fun entry _ =>
      cons_ne_nil _ _
    have counted := length_flatMap_ge filled
    have positive := length_pos_iff.mpr some
    have dumped := @dumpEvents_formed now _ known (fun entry member => (young entry member).2)
      ⟨[], (logAlloc.run actions).expectedSerializedSize⟩ size.ge
    rw [nil_append, size, Nat.sub_self] at dumped
    refine ⟨letter 'L' :: (logged actions).flatMap (Logged.bytes now), ?_, ?_, rfl, ?_⟩
    · rw [logDump, if_neg (by omega), size, holds.events]
      show ((List.map Logged.event (logged actions)).foldlM (dumpEvent now) _ >>= _ :
        Except Abort (Option (Bytes × Nat))) = _
      rw [dumped]
      show (if _ then _ else _ : Except Abort (Option (Bytes × Nat))) = _
      rw [if_neg (by simp), if_neg (by simp)]
    · rw [length_cons, size]
    · rw [drop_one, tail_cons, storeLogs]
      refine (readAll_flatMap (fun entry member rest => storeLog_eventBytes current
        ((known entry member).formed entry.credentials entry.time) (young entry member).1
        (young entry member).2 rest) filled counted).trans ?_
      exact congrArg Option.some
        (map_congr_left fun entry member => eventRow_logged (known entry member))

/-- A login from a mapped address with the credentials, one without them, and a plain address. -/
def someActions : List LogAction :=
  [.event ⟨0x54, List.replicate 16 1, List.replicate 16 2, 80, .connect, none, none, none⟩ 3,
    .clean 4, .sendCredentials true,
    .event ⟨0x54, mappedPrefix ++ [1, 2, 3, 4], mappedPrefix ++ [5, 6, 7, 8], 1024, .login, none,
      some [0x61], some [0x62, 0x63]⟩ 5,
    .sendCredentials false,
    .event ⟨0x54, List.replicate 16 1, List.replicate 16 2, 80, .login, none, some [0x61], none⟩ 6,
    .event ⟨0x54, List.replicate 16 1, List.replicate 16 2, 80, .lost, some [0x64], none, none⟩ 7]

theorem someActions_fits (call : Call) (time : Nat) (made : .event call time ∈ someActions) :
    call.Fits := by
  simp only [someActions, mem_cons, LogAction.event.injEq, reduceCtorEq, not_mem_nil, or_false,
    false_or] at made
  rcases made with ⟨rfl, -⟩ | ⟨rfl, -⟩ | ⟨rfl, -⟩ | ⟨rfl, -⟩ <;>
    exact ⟨rfl, rfl, by decide, by decide⟩

theorem logs_stored_some :
    ∃ message, logDump (logAlloc.run someActions) 8 =
        .ok (some (message, (logAlloc.run someActions).expectedSerializedSize + 1)) ∧
      storeLogs 2 (message.drop 1) = some ((logged someActions).map (Logged.row 8)) := by
  obtain ⟨message, dumped, -, -, stored⟩ :=
    (logs_stored someActions 8 2 (by decide) someActions_fits (by decide)).2 (by decide)
  exact ⟨message, dumped, stored⟩

def longCall (content : Bytes) : Call :=
  ⟨0x54, List.replicate 16 1, List.replicate 16 2, 80, .disconnect, some content, none, none⟩

/-- The string is rendered as an empty one, but the whole of it was counted. -/
theorem logDump_long {content : Bytes} (long : content.length = 2 ^ 32) :
    logDump (logAlloc.run [.event (longCall content) 0]) 0 = .error .lengthMismatch := by
  have truncated : (EventInfo.mk .reason content).truncated = ⟨.reason, []⟩ := by
    rw [EventInfo.truncated, long]
    rfl
  have expected : (logAlloc.run [.event (longCall content) 0]).expectedSerializedSize =
      47 + content.length := by
    show 0 + (10 + 32 + (5 + content.length + 0)) = _
    omega
  have events : (logAlloc.run [.event (longCall content) 0]).events =
      [(longCall content).report.event false 0] := rfl
  have header : (((longCall content).report.event false 0).header 0 ++
      (((longCall content).report.event false 0).remAddr ++
        ((longCall content).report.event false 0).locAddr)).length = 42 := rfl
  have dumped : ∃ output, dumpEvent 0 ⟨[], 47 + content.length⟩
      ((longCall content).report.event false 0) = .ok output ∧ output.written.length = 47 := by
    have young : ¬ (0 + 2 ^ 32 ≤ 0) := by omega
    have one : ¬ (16 ≤ 1) := by decide
    rw [dumpEvent, if_neg (by exact young), if_neg (not_not_intro (.inr rfl)),
      if_neg (by exact one), putOutput, put_enough (by
        rw [header]
        show 42 ≤ 47 + content.length
        omega)]
    show ∃ output, [some (EventInfo.mk .reason content)].foldlM dumpInfo _ = _ ∧ _
    rw [foldlM_cons, dumpInfo_truncated (fun same => by cases same) (by
      rw [truncated, header]
      show 5 ≤ 47 + content.length - 42
      omega), truncated]
    refine ⟨_, rfl, ?_⟩
    rw [length_append, nil_append, header]
    rfl
  obtain ⟨output, dumped, short⟩ := dumped
  rw [logDump, if_neg (by omega), events, expected, foldlM_cons, dumped]
  show (if output.written.length ≠ 47 + content.length then _ else _ :
    Except Abort (Option (Bytes × Nat))) = _
  rw [if_pos (by omega)]

def mixedCall : Call :=
  ⟨0x54, mappedPrefix ++ [1, 2, 3, 4], List.replicate 16 2, 80, .connect, none, none, none⟩

/-- An empty log has no message, a string of 4 GiB fails a check, and the local address loses bytes
when only the remote one is mapped. -/
theorem logs_stored_not :
    logDump logAlloc 0 = .ok none ∧
      logDump (logAlloc.run [.event (longCall (List.replicate (2 ^ 32) 1)) 0]) 0 =
        .error .lengthMismatch ∧
      ∃ message size, logDump (logAlloc.run [.event mixedCall 0]) 0 = .ok (some (message, size)) ∧
        storeLogs 2 (message.drop 1) = some [⟨0, .connect, [1, 2, 3, 4],
          some (List.replicate 4 2), some 80, ⟨none, none, none⟩, 0x54⟩] :=
  ⟨rfl, logDump_long length_replicate, _, _, rfl, by decide +kernel⟩

end Ucollect.Fake
