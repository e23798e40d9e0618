import Ucollect.Construction.Sniff.Batches
import Ucollect.Proof.Flow.Reading

/-
The client parses the parameters of a task exactly when they are what the server packs.
-/

namespace Ucollect.Sniffer
open Library Core List Option

section Targets

variable {Item Target : Type} {taskParse : Bytes → Option (Parsed Target)} {write : Item → Bytes}
  {image : Item → Target × List Bytes} {known : Item → Prop}

/-- The parser takes the items that it knows from the front of a message, and nothing else. -/
structure Takes (taskParse : Bytes → Option (Parsed Target)) (write : Item → Bytes)
    (image : Item → Target × List Bytes) (known : Item → Prop) : Prop where
  reads : ∀ item, known item → ∀ rest,
    taskParse (write item ++ rest) = some ⟨(image item).1, (image item).2, rest⟩
  inverts : ∀ message parsed, taskParse message = some parsed →
    ∃ item, known item ∧ message = write item ++ parsed.rest ∧
      image item = (parsed.target, parsed.args)

variable {items : List Item}

section

variable (takes : Takes taskParse write image known)
include takes

theorem Takes.parsed (all : ∀ item ∈ items, known item) (rest : Bytes) :
    parseTargets taskParse items.length (items.flatMap write ++ rest) = (items.map image, true) := by
  induction items with
  | nil => rfl
  | cons item items ih =>
    have later := ih fun other member => all other (mem_cons_of_mem _ member)
    have first := takes.reads item (all item mem_cons_self) (items.flatMap write ++ rest)
    rw [flatMap_cons, append_assoc, length_cons, parseTargets, first]
    dsimp only
    rw [later, map_cons]

theorem Takes.parsed_true {count : Nat} {message : Bytes} {targets : List (Target × List Bytes)}
    (parsed : parseTargets taskParse count message = (targets, true)) :
    ∃ (items : List Item) (rest : Bytes), items.length = count ∧ (∀ item ∈ items, known item) ∧
      message = items.flatMap write ++ rest := by
  induction count generalizing message targets with
  | zero => exact ⟨[], message, rfl, forall_mem_nil _, rfl⟩
  | succ count ih =>
    rw [parseTargets] at parsed
    cases result : taskParse message with
    | none =>
      rw [result] at parsed
      cases parsed
    | some first =>
      rw [result] at parsed
      obtain ⟨item, good, same, -⟩ := takes.inverts message first result
      have flag : (parseTargets taskParse count first.rest).2 = true :=
        congrArg Prod.snd parsed
      obtain ⟨items, rest, length, all, later⟩ :=
        ih (Prod.ext_iff.mpr ⟨rfl, flag⟩)
      refine ⟨item :: items, rest, ?_, ?_, ?_⟩
      · rw [length_cons, length]
      · rintro other member
        rcases mem_cons.mp member with rfl | old
        · exact good
        · exact all other old
      · rw [flatMap_cons, append_assoc, ← later, ← same]

/-- The command for some targets. -/
def commandOf (program name : Bytes) (targets : List (Target × List Bytes)) : List Bytes :=
  [text "/bin/busybox", text "ash", text "-c", program, text "sniff-" ++ name] ++
    targets.flatMap Prod.snd

theorem Takes.accepted (program name : Bytes) (forked : Bool) (few : items.length < 2 ^ 16)
    (all : ∀ item ∈ items, known item) (rest : Bytes) :
    inputParse program name taskParse forked
        (word16 items.length ++ (items.flatMap write ++ rest)) =
      (⟨true, forked, items.length, (items.map image).map Prod.fst⟩,
        some (commandOf program name (items.map image))) := by
  have width : (word16 items.length).length = 2 := rfl
  rw [inputParse, if_neg (by rw [length_append, width]; omega), take_left' width, drop_left' width,
    bigEndian_word16 few]
  dsimp only
  rw [takes.parsed all]
  rfl

/-- A message that is accepted has a count and that many items that the parser knows. -/
theorem Takes.accepts (program name : Bytes) (forked : Bool) {message : Bytes}
    (accepted : (inputParse program name taskParse forked message).1.inputOk = true) :
    ∃ (items : List Item) (rest : Bytes), items.length < 2 ^ 16 ∧ (∀ item ∈ items, known item) ∧
      message = word16 items.length ++ (items.flatMap write ++ rest) := by
  rw [inputParse] at accepted
  split at accepted
  case isTrue => cases accepted
  case isFalse long =>
    have width : (message.take 2).length = 2 := by
      rw [length_take]
      omega
    dsimp only at accepted
    split at accepted
    case isFalse => cases accepted
    case isTrue flag =>
      obtain ⟨items, rest, length, all, same⟩ :=
        takes.parsed_true (Prod.ext_iff.mpr ⟨rfl, flag⟩)
      have header := Flow.word16_bigEndian width
      refine ⟨items, rest, ?_, all, ?_⟩
      · rw [length]
        exact Flow.bigEndian_lt16 width
      · rw [length, header, ← same, take_append_drop]

end

/-- An item that the parser does not know makes the whole input wrong. -/
theorem known_of_parsed {sized : Item → Prop}
    (refuses : ∀ item, sized item → ¬ known item → ∀ rest, taskParse (write item ++ rest) = none)
    (takes : Takes taskParse write image known) (all : ∀ item ∈ items, sized item) {rest : Bytes}
    (flag : (parseTargets taskParse items.length (items.flatMap write ++ rest)).2 = true) :
    ∀ item ∈ items, known item := by
  induction items with
  | nil => exact forall_mem_nil _
  | cons item items ih =>
    rw [flatMap_cons, append_assoc, length_cons, parseTargets] at flag
    by_cases good : known item
    · rw [takes.reads item good] at flag
      rintro other member
      rcases mem_cons.mp member with rfl | old
      · exact good
      · exact ih (fun other member => all other (mem_cons_of_mem _ member))
          flag other old
    · rw [refuses item (all item mem_cons_self) good] at flag
      cases flag

end Targets

section Pings

/-- The numbers of the request fit in the message. -/
def PingSized (request : Sniff.PingRequest) : Prop :=
  request.amount < 2 ^ 8 ∧ request.size < 2 ^ 16 ∧ request.host.length < 2 ^ 32

def PingKnown (request : Sniff.PingRequest) : Prop :=
  PingSized request ∧ request.proto ∈ pingProtocols

def pingWrite (request : Sniff.PingRequest) : Bytes :=
  [request.proto, request.amount.toUInt8] ++ word16 request.size ++ renderString request.host

/-- These are the target and its arguments. -/
def pingImage (request : Sniff.PingRequest) : PingTarget × List Bytes :=
  (⟨request.amount⟩, [[request.proto], decimalText request.amount, decimalText request.size,
    cString request.host])

theorem hostParse_write {request : Sniff.PingRequest} (sized : PingSized request) (rest : Bytes) :
    hostParse (pingWrite request ++ rest) =
      if request.proto ∈ pingProtocols then
        some ⟨(pingImage request).1, (pingImage request).2, rest⟩
      else none := by
  obtain ⟨amount, size, host⟩ := sized
  have count : request.amount.toUInt8.toNat = request.amount := by
    rw [Nat.toUInt8_eq, UInt8.toNat_ofNat']
    exact Nat.mod_eq_of_lt amount
  have bytes : bigEndian [(request.size / 2 ^ 8).toUInt8, request.size.toUInt8] = request.size :=
    bigEndian_word16 size
  change hostParse (request.proto :: request.amount.toUInt8 :: (request.size / 2 ^ 8).toUInt8 ::
    request.size.toUInt8 :: (renderString request.host ++ rest)) = _
  rw [hostParse, uplinkParseString_append rest host]
  dsimp only
  rw [count, bytes]
  rfl

theorem takes_host : Takes hostParse pingWrite pingImage PingKnown where
  reads request known rest := by
    rw [hostParse_write known.1, if_pos known.2]
  inverts message parsed result := by
    unfold hostParse at result
    split at result
    case h_1 proto count sizeHigh sizeLow message =>
      split at result
      case h_1 => cases result
      case h_2 host rest found =>
        obtain ⟨small, same⟩ := Flow.uplinkParseString_eq_some found
        split at result
        case isFalse => cases result
        case isTrue member =>
          cases result
          have word : word16 (bigEndian [sizeHigh, sizeLow]) = [sizeHigh, sizeLow] :=
            Flow.word16_bigEndian rfl
          refine ⟨⟨0, host, proto, count.toNat, bigEndian [sizeHigh, sizeLow]⟩, ⟨⟨?_, ?_, small⟩,
            member⟩, ?_, rfl⟩
          · exact count.toNat_lt
          · exact Flow.bigEndian_lt16 rfl
          · rw [pingWrite, word, same, Nat.toUInt8_eq, UInt8.ofNat_toNat]
            rfl
    case h_2 => cases result

/-- The packed requests are written one behind another. -/
theorem mapM_eq_some {Request : Type} {encode : Request → Option Bytes} {write : Request → Bytes}
    {sized : Request → Prop}
    (encodes : ∀ request bytes, encode request = some bytes → sized request ∧ bytes = write request)
    {requests : List Request} {encoded : List Bytes} (packed : requests.mapM encode = some encoded) :
    (∀ request ∈ requests, sized request) ∧ encoded.flatten = requests.flatMap write := by
  induction requests generalizing encoded with
  | nil =>
    cases packed
    exact ⟨forall_mem_nil _, rfl⟩
  | cons request requests ih =>
    rw [mapM_cons, bind_eq_bind, bind_eq_some_iff] at packed
    obtain ⟨bytes, first, packed⟩ := packed
    rw [bind_eq_bind, bind_eq_some_iff] at packed
    obtain ⟨others, later, packed⟩ := packed
    cases packed
    obtain ⟨fits, rfl⟩ := encodes request bytes first
    obtain ⟨all, same⟩ := ih later
    refine ⟨?_, ?_⟩
    · rintro other member
      rcases mem_cons.mp member with rfl | old
      · exact fits
      · exact all other old
    · rw [flatten_cons, same, flatMap_cons]

/-- A batch has the count of its requests, the requests and what is kept of them. -/
theorem batches_eq_some {Request Kept : Type} {encode : Request → Option Bytes}
    {write : Request → Bytes} {sized : Request → Prop} {keep : Request → Kept}
    (encodes : ∀ request bytes, encode request = some bytes → sized request ∧ bytes = write request)
    {requests : List Request} {batch : Sniff.Batch Kept}
    (packed : Sniff.batches encode keep requests = some [batch]) :
    requests.length < 2 ^ 16 ∧ (∀ request ∈ requests, sized request) ∧
      batch.message = word16 requests.length ++ (requests.flatMap write ++ []) ∧
      batch.hosts = requests.map keep := by
  rw [Sniff.batches, bind_eq_some_iff] at packed
  obtain ⟨encoded, each, packed⟩ := packed
  obtain ⟨all, same⟩ := mapM_eq_some encodes each
  split at packed
  case isTrue => cases packed
  case isFalse =>
    split at packed
    case isFalse => cases packed
    case isTrue few =>
      cases packed
      exact ⟨few, all, by rw [same, append_nil], rfl⟩

theorem encodes_ping (request : Sniff.PingRequest) (bytes : Bytes)
    (encoded : request.encodeHost = some bytes) : PingSized request ∧ bytes = pingWrite request := by
  rw [Sniff.PingRequest.encodeHost] at encoded
  split at encoded
  case isFalse => cases encoded
  case isTrue sized =>
    cases encoded
    refine ⟨sized, ?_⟩
    rw [pingWrite, renderString]
    simp only [append_assoc]

/-- A batch of the server is parsed to its hosts when the client knows their protocols. -/
theorem ping_batch_parsed {requests : List Sniff.PingRequest} {batch : Sniff.Batch (Nat × Nat)}
    (packed : Sniff.pingBatches requests = some [batch])
    (protocols : ∀ request ∈ requests, request.proto ∈ pingProtocols) (program : Bytes)
    (forked : Bool) : startPing program forked batch.message =
      (⟨true, forked, requests.length, (requests.map pingImage).map Prod.fst⟩,
        some (commandOf program (text "pinger") (requests.map pingImage))) := by
  obtain ⟨few, sized, message, -⟩ := batches_eq_some encodes_ping packed
  rw [startPing, message]
  exact takes_host.accepted program _ forked few
    (fun request member => ⟨sized request member, protocols request member⟩) []

def hostRequests : List Sniff.PingRequest :=
  [⟨7, text "example.org", letter '4', 3, 64⟩, ⟨8, text "2001:db8::1", letter '6', 255, 1500⟩,
    ⟨9, [], letter 'X', 0, 65535⟩]

theorem ping_batch_parsed_hosts :
    ∃ batch, Sniff.pingBatches hostRequests = some [batch] ∧
      startPing [] true batch.message = (⟨true, true, 3, [⟨3⟩, ⟨255⟩, ⟨0⟩]⟩,
        some (commandOf [] (text "pinger") (hostRequests.map pingImage))) := by
  have packed : Sniff.pingBatches hostRequests =
      some [⟨[0, 3] ++ hostRequests.flatMap pingWrite, [(7, 3), (8, 255), (9, 0)]⟩] := by
    decide +kernel
  exact ⟨_, packed, ping_batch_parsed packed (by decide +kernel) [] true⟩

end Pings

section Certificates

/-- The numbers of the request fit in the message, and the protocol has only three bits. -/
def CertSized (request : Sniff.CertRequest) : Prop :=
  request.starttls < 8 ∧ request.port < 2 ^ 16 ∧ request.host.length < 2 ^ 32

/-- The client knows six protocols. -/
def CertKnown (request : Sniff.CertRequest) : Prop := CertSized request ∧ request.starttls < 6

def certWrite (request : Sniff.CertRequest) : Bytes :=
  [request.flags.toUInt8] ++ word16 request.port ++ renderString request.host

def starttlsName (starttls : Nat) : Bytes := ((tlsProto[starttls]?).join).getD []

def certImage (request : Sniff.CertRequest) : CertTarget × List Bytes :=
  (⟨request.wantCert, request.wantChain, request.wantDetails, request.wantParams⟩,
    [cString request.host, decimalText request.port, starttlsName request.starttls])

/-- This is what the client sees in a byte of flags. -/
def flagsOf (flags : UInt8) : Option (Nat × CertTarget) :=
  if flags &&& moreFlags ≠ 0 then none
  else some ((flags &&& starttlsProtoMask).toNat,
    ⟨flags &&& wantCertFlag != 0, flags &&& wantChainFlag != 0, flags &&& wantDetailsFlag != 0,
      flags &&& wantParamsFlag != 0⟩)

def flagsNumber (starttls : Nat) (target : CertTarget) : Nat :=
  starttls ||| (target.wantCert.toNat <<< 3) ||| (target.wantChain.toNat <<< 4) |||
    (target.wantDetails.toNat <<< 5) ||| (target.wantParams.toNat <<< 6)

theorem flagsOf_number (starttls : Fin 8) (cert chain details params : Bool) :
    flagsOf (flagsNumber starttls.val ⟨cert, chain, details, params⟩).toUInt8 =
      some (starttls.val, ⟨cert, chain, details, params⟩) := by
  revert starttls cert chain details params
  decide +kernel

theorem number_flagsOf (flags : Fin (2 ^ 8)) : (flagsOf (UInt8.ofNat flags.val)).all (fun pair =>
    decide (pair.1 < 8 ∧ flagsNumber pair.1 pair.2 = flags.val)) = true := by
  revert flags
  decide +kernel

theorem certParse_flags (flags portHigh portLow : UInt8) (message : Bytes) :
    certParse (flags :: portHigh :: portLow :: message) =
      (flagsOf flags).bind fun pair => (uplinkParseString message).bind fun found =>
        ((tlsProto[pair.1]?).join).map fun tls => ⟨pair.2, [cString found.1,
          decimalText (bigEndian [portHigh, portLow]), tls], found.2⟩ := by
  rw [certParse, flagsOf]
  split
  case isTrue => rfl
  case isFalse =>
    rw [bind_some]
    cases uplinkParseString message with
    | none => rfl
    | some found =>
      dsimp only [bind_some]
      cases (tlsProto[(flags &&& starttlsProtoMask).toNat]?).join with
      | none => rfl
      | some tls => rfl

theorem starttlsName_known (starttls : Fin 8) : (tlsProto[starttls.val]?).join =
    if starttls.val < 6 then some (starttlsName starttls.val) else none := by
  revert starttls
  decide +kernel

theorem certParse_write {request : Sniff.CertRequest} (sized : CertSized request) (rest : Bytes) :
    certParse (certWrite request ++ rest) =
      if request.starttls < 6 then some ⟨(certImage request).1, (certImage request).2, rest⟩
      else none := by
  obtain ⟨protocol, port, host⟩ := sized
  have bytes : bigEndian [(request.port / 2 ^ 8).toUInt8, request.port.toUInt8] = request.port :=
    bigEndian_word16 port
  have flags : flagsOf request.flags.toUInt8 = some (request.starttls, (certImage request).1) :=
    flagsOf_number ⟨request.starttls, protocol⟩ request.wantCert request.wantChain
      request.wantDetails request.wantParams
  have name : (tlsProto[request.starttls]?).join =
      if request.starttls < 6 then some (starttlsName request.starttls) else none :=
    starttlsName_known ⟨request.starttls, protocol⟩
  have written : certWrite request ++ rest = request.flags.toUInt8 ::
      (request.port / 2 ^ 8).toUInt8 :: request.port.toUInt8 ::
        (renderString request.host ++ rest) := rfl
  rw [written, certParse_flags, uplinkParseString_append rest host, flags, bind_some, bind_some,
    bytes, name]
  split
  · rw [map_some, certImage]
  · rw [map_none]

theorem takes_cert : Takes certParse certWrite certImage CertKnown where
  reads request known rest := by
    rw [certParse_write known.1, if_pos known.2]
  inverts message parsed result := by
    cases message with
    | nil => cases result
    | cons flags message =>
      cases message with
      | nil => cases result
      | cons portHigh message =>
        cases message with
        | nil => cases result
        | cons portLow message =>
          rw [certParse_flags, bind_eq_some_iff] at result
          obtain ⟨⟨starttls, target⟩, byte, result⟩ := result
          rw [bind_eq_some_iff] at result
          obtain ⟨⟨host, rest⟩, found, result⟩ := result
          obtain ⟨small, same⟩ := Flow.uplinkParseString_eq_some found
          rw [map_eq_some_iff] at result
          obtain ⟨tls, protocol, rfl⟩ := result
          have number := number_flagsOf ⟨flags.toNat, flags.toNat_lt⟩
          rw [show UInt8.ofNat (⟨flags.toNat, flags.toNat_lt⟩ : Fin (2 ^ 8)).val = flags from
            UInt8.ofNat_toNat, byte, all_some, decide_eq_true_eq] at number
          obtain ⟨bits, equal⟩ := number
          have known := starttlsName_known ⟨starttls, bits⟩
          have word : word16 (bigEndian [portHigh, portLow]) = [portHigh, portLow] :=
            Flow.word16_bigEndian rfl
          dsimp only at protocol
          rw [show (tlsProto[starttls]?).join = some tls from protocol] at known
          split at known
          case isFalse => cases known
          case isTrue low =>
            cases known
            refine ⟨⟨0, host, bigEndian [portHigh, portLow], starttls, target.wantCert,
              target.wantChain, target.wantDetails, target.wantParams⟩,
              ⟨⟨bits, Flow.bigEndian_lt16 rfl, small⟩, low⟩, ?_, rfl⟩
            have code : (flagsNumber starttls target).toUInt8 = flags := by
              rw [equal, Nat.toUInt8_eq]
              exact UInt8.ofNat_toNat
            rw [certWrite, word, same]
            change _ = (flagsNumber starttls target).toUInt8 :: _
            rw [code]
            rfl

/-- The flags of a request fit in a byte. -/
theorem encodes_cert (request : Sniff.CertRequest) (bytes : Bytes)
    (encoded : request.encodeHost = some bytes) :
    (request.port < 2 ^ 16 ∧ request.host.length < 2 ^ 32) ∧ bytes = certWrite request := by
  rw [Sniff.CertRequest.encodeHost] at encoded
  split at encoded
  case isFalse => cases encoded
  case isTrue sized =>
    cases encoded
    refine ⟨sized.2, ?_⟩
    rw [certWrite, renderString]
    simp only [append_assoc]

/-- The client accepts a batch of the server exactly when it knows all protocols, and then it has
the same hosts. -/
theorem cert_batch_parsed {requests : List Sniff.CertRequest}
    {batch : Sniff.Batch (Nat × Bool × Bool)} (packed : Sniff.certBatches requests = some [batch])
    (bits : ∀ request ∈ requests, request.starttls < 8) (program : Bytes) (forked : Bool) :
    ((startCert program forked batch.message).1.inputOk = true ↔
        ∀ request ∈ requests, request.starttls < 6) ∧
      ((∀ request ∈ requests, request.starttls < 6) →
        startCert program forked batch.message =
          (⟨true, forked, requests.length, (requests.map certImage).map Prod.fst⟩,
            some (commandOf program (text "sslcert") (requests.map certImage)))) := by
  obtain ⟨few, sized, message, -⟩ := batches_eq_some encodes_cert packed
  have all : ∀ request ∈ requests, CertSized request := fun request member =>
    ⟨bits request member, sized request member⟩
  have parses : (∀ request ∈ requests, request.starttls < 6) →
      startCert program forked batch.message =
        (⟨true, forked, requests.length, (requests.map certImage).map Prod.fst⟩,
          some (commandOf program (text "sslcert") (requests.map certImage))) := by
    intro protocols
    rw [startCert, message]
    exact takes_cert.accepted program _ forked few
      (fun request member => ⟨all request member, protocols request member⟩) []
  refine ⟨⟨?_, fun protocols => by rw [parses protocols]⟩, parses⟩
  intro accepted
  have refuses : ∀ request, CertSized request → ¬ CertKnown request → ∀ rest,
      certParse (certWrite request ++ rest) = none := by
    intro request sized unknown rest
    rw [certParse_write sized, if_neg fun low => unknown ⟨sized, low⟩]
  have width : (word16 requests.length).length = 2 := rfl
  have flag : (parseTargets certParse requests.length (requests.flatMap certWrite ++ [])).2 =
      true := by
    rw [startCert, message, inputParse, if_neg (by rw [length_append, width]; omega),
      take_left' width, drop_left' width, bigEndian_word16 few] at accepted
    dsimp only at accepted
    split at accepted
    case isTrue good => exact good
    case isFalse => cases accepted
  exact fun request member => (known_of_parsed refuses takes_cert all flag request member).2

/-- A message for a task is accepted exactly when it is a count with so many complete hosts of known
protocols, whatever follows them. -/
theorem inputs_accepted (pingerProgram certProgram : Bytes) (forked : Bool) (message : Bytes) :
    ((startPing pingerProgram forked message).1.inputOk = true ↔
        ∃ (requests : List Sniff.PingRequest) (rest : Bytes), requests.length < 2 ^ 16 ∧
          (∀ request ∈ requests, PingKnown request) ∧
          message = word16 requests.length ++ (requests.flatMap pingWrite ++ rest)) ∧
      ((startCert certProgram forked message).1.inputOk = true ↔
        ∃ (requests : List Sniff.CertRequest) (rest : Bytes), requests.length < 2 ^ 16 ∧
          (∀ request ∈ requests, CertKnown request) ∧
          message = word16 requests.length ++ (requests.flatMap certWrite ++ rest)) := by
  constructor
  · refine ⟨takes_host.accepts pingerProgram _ forked, ?_⟩
    rintro ⟨requests, rest, few, all, rfl⟩
    rw [startPing, takes_host.accepted pingerProgram _ forked few all rest]
  · refine ⟨takes_cert.accepts certProgram _ forked, ?_⟩
    rintro ⟨requests, rest, few, all, rfl⟩
    rw [startCert, takes_cert.accepted certProgram _ forked few all rest]

def mailRequests : List Sniff.CertRequest :=
  [⟨3, text "mail.example.org", 25, 1, true, false, true, false⟩,
    ⟨4, text "example.org", 443, 0, true, true, false, true⟩,
    ⟨5, text "chat.example.org", 5222, 5, false, false, true, true⟩]

theorem cert_batch_parsed_mails :
    ∃ batch, Sniff.certBatches mailRequests = some [batch] ∧
      startCert [] true batch.message = (⟨true, true, 3, [⟨true, false, true, false⟩,
          ⟨true, true, false, true⟩, ⟨false, false, true, true⟩]⟩,
        some (commandOf [] (text "sslcert") (mailRequests.map certImage))) := by
  have packed : Sniff.certBatches mailRequests = some [⟨[0, 3] ++ mailRequests.flatMap certWrite,
      [(3, true, false), (4, false, true), (5, true, true)]⟩] := by decide +kernel
  exact ⟨_, packed, (cert_batch_parsed packed (by decide +kernel) [] true).2 (by decide +kernel)⟩

end Certificates

end Ucollect.Sniffer
