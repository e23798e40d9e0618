import Ucollect.Construction.Core.UplinkFormat

/-
This file models the parameters of the pinger and of the certificate downloader: how the server
packs them in master/sniff/ping.py and cert.py, and how the client parses them in
plugins/sniff/parse.c, ping.c and cert.c.
-/

namespace Ucollect.Sniffer
open Library Core

section Parameters

variable {Target : Type}

/-- The targets are those that were parsed. -/
structure TaskData (Target : Type) where
  inputOk : Bool
  systemOk : Bool
  targetCount : Nat
  targets : List Target
  deriving DecidableEq, Repr

/-- A target comes with its arguments for the program and with the rest of the message. -/
structure Parsed (Target : Type) where
  target : Target
  args : List Bytes
  rest : Bytes
  deriving DecidableEq, Repr

/-- The flag says that no target was broken. -/
def parseTargets (taskParse : Bytes → Option (Parsed Target)) :
    Nat → Bytes → List (Target × List Bytes) × Bool
  | 0, _ => ([], true)
  | count + 1, message =>
    match taskParse message with
    | none => ([], false)
    | some parsed =>
      let later := parseTargets taskParse count parsed.rest
      ((parsed.target, parsed.args) :: later.1, later.2)

def text (string : String) : Bytes := string.toList.map letter

/-- This is `input_parse`. The second result is the command that is run, and `forked` says whether
running it works. -/
def inputParse (program name : Bytes) (taskParse : Bytes → Option (Parsed Target)) (forked : Bool)
    (message : Bytes) : TaskData Target × Option (List Bytes) :=
  if message.length < 2 then (⟨false, true, 0, []⟩, none)
  else
    let targetCount := bigEndian (message.take 2)
    let parsed := parseTargets taskParse targetCount (message.drop 2)
    let targets := parsed.1.map Prod.fst
    let argv := [text "/bin/busybox", text "ash", text "-c", program, text "sniff-" ++ name] ++
      parsed.1.flatMap Prod.snd
    if parsed.2 then (⟨true, forked, targetCount, targets⟩, some argv)
    else (⟨false, true, targetCount, targets⟩, none)

/-- This is the number as `printf` writes it. -/
def decimalText (number : Nat) : Bytes := (Nat.toDigits 10 number).map letter

end Parameters

section Pings

/-- The number of pings is all that is kept of a host. -/
structure PingTarget where
  pingCount : Nat
  deriving DecidableEq, Repr

def pingProtocols : List UInt8 := [letter '4', letter '6', letter 'X']

/-- This is `host_parse`. -/
def hostParse (message : Bytes) : Option (Parsed PingTarget) :=
  match message with
  | proto :: count :: sizeHigh :: sizeLow :: message =>
    match uplinkParseString message with
    | none => none
    | some (host, rest) =>
      if proto ∈ pingProtocols then
        some ⟨⟨count.toNat⟩, [[proto], decimalText count.toNat,
          decimalText (bigEndian [sizeHigh, sizeLow]), cString host], rest⟩
      else none
  | _ => none

def startPing (pingerProgram : Bytes) :
    Bool → Bytes → TaskData PingTarget × Option (List Bytes) :=
  inputParse pingerProgram (text "pinger") hostParse

end Pings

section Certificates

structure CertTarget where
  wantCert : Bool
  wantChain : Bool
  wantDetails : Bool
  wantParams : Bool
  deriving DecidableEq, Repr

def starttlsProtoMask : UInt8 := 7
def wantCertFlag : UInt8 := (1 : UInt8) <<< 3
def wantChainFlag : UInt8 := (1 : UInt8) <<< 4
def wantDetailsFlag : UInt8 := (1 : UInt8) <<< 5
def wantParamsFlag : UInt8 := (1 : UInt8) <<< 6
def moreFlags : UInt8 := (1 : UInt8) <<< 7

/-- The last two numbers stand for nothing. -/
def tlsProto : List (Option Bytes) :=
  [some (text ""), some (text "smtp"), some (text "pop3"), some (text "imap"), some (text "ftp"),
    some (text "xmpp"), none, none]

/-- This is `cert_parse`. -/
def certParse (message : Bytes) : Option (Parsed CertTarget) :=
  match message with
  | flags :: portHigh :: portLow :: message =>
    if flags &&& moreFlags ≠ 0 then none
    else
      match uplinkParseString message with
      | none => none
      | some (host, rest) =>
        match (tlsProto[(flags &&& starttlsProtoMask).toNat]?).join with
        | none => none
        | some tls =>
          some ⟨⟨flags &&& wantCertFlag != 0, flags &&& wantChainFlag != 0,
              flags &&& wantDetailsFlag != 0, flags &&& wantParamsFlag != 0⟩,
            [cString host, decimalText (bigEndian [portHigh, portLow]), tls], rest⟩
  | _ => none

def startCert (certProgram : Bytes) : Bool → Bytes → TaskData CertTarget × Option (List Bytes) :=
  inputParse certProgram (text "sslcert") certParse

end Certificates

end Ucollect.Sniffer

namespace Ucollect.Sniff
open Library

section Requests

/-- This is a row of `ping_requests`. -/
structure PingRequest where
  rid : Nat
  host : Bytes
  proto : UInt8
  amount : Nat
  size : Nat
  deriving DecidableEq, Repr

/-- A number that does not fit raises an exception. -/
def PingRequest.encodeHost (request : PingRequest) : Option Bytes :=
  if request.amount < 2 ^ 8 ∧ request.size < 2 ^ 16 ∧ request.host.length < 2 ^ 32 then
    some ([request.proto, request.amount.toUInt8] ++ word16 request.size ++
      word32 request.host.length ++ request.host)
  else none

/-- This is a row of `cert_requests`. -/
structure CertRequest where
  rid : Nat
  host : Bytes
  port : Nat
  starttls : Nat
  wantCert : Bool
  wantChain : Bool
  wantDetails : Bool
  wantParams : Bool
  deriving DecidableEq, Repr

def CertRequest.flags (request : CertRequest) : Nat :=
  request.starttls ||| (request.wantCert.toNat <<< 3) ||| (request.wantChain.toNat <<< 4) |||
    (request.wantDetails.toNat <<< 5) ||| (request.wantParams.toNat <<< 6)

def CertRequest.encodeHost (request : CertRequest) : Option Bytes :=
  if request.flags < 2 ^ 8 ∧ request.port < 2 ^ 16 ∧ request.host.length < 2 ^ 32 then
    some ([request.flags.toUInt8] ++ word16 request.port ++ word32 request.host.length ++
      request.host)
  else none

/-- The message of a task, with what the server keeps of each host. -/
structure Batch (Kept : Type) where
  message : Bytes
  hosts : List Kept
  deriving DecidableEq, Repr

/-- The hosts of one turn of the schedule make one task, and no hosts make none. -/
def batches {Request Kept : Type} (encodeHost : Request → Option Bytes) (keep : Request → Kept)
    (requests : List Request) : Option (List (Batch Kept)) :=
  (requests.mapM encodeHost).bind fun encoded =>
    if requests = [] then some []
    else if requests.length < 2 ^ 16 then
      some [⟨word16 requests.length ++ encoded.flatten, requests.map keep⟩]
    else none

def pingBatches : List PingRequest → Option (List (Batch (Nat × Nat))) :=
  batches PingRequest.encodeHost fun request => (request.rid, request.amount)

def certBatches : List CertRequest → Option (List (Batch (Nat × Bool × Bool))) :=
  batches CertRequest.encodeHost fun request =>
    (request.rid, request.wantDetails, request.wantParams)

end Requests

end Ucollect.Sniff
