import Ucollect.Library.Bytes

/-
This file models one telnet connection in plugins/fake/telnet.c: its data and what a single byte
does to them.
-/

namespace Ucollect.Fake.Telnet
open Library

section Data

/-- `nullTag` is a call with a pointer to a tag that was never set, `outside` a write behind a buffer,
`timeouts` an assertion of the loop, and the others are sanity checks. -/
inductive Fault where
  | nullTag
  | outside
  | timeouts
  | missingLogin
  | missingPassword
  | identifier
  deriving DecidableEq, Repr

inductive Expect where
  | none
  | cmd
  | opcode
  | params
  | paramsEnd
  | lf
  deriving DecidableEq, Repr

inductive Command where
  | se
  | nop
  | dm
  | break
  | ip
  | ao
  | ayt
  | ec
  | el
  | ga
  | sb
  | will
  | wont
  | do
  | dont
  | iac
  deriving DecidableEq, Repr

def Command.all : List Command :=
  [.se, .nop, .dm, .break, .ip, .ao, .ayt, .ec, .el, .ga, .sb, .will, .wont, .do, .dont, .iac]

/-- The first command has the code 240. -/
def Command.ofByte (byte : UInt8) : Option Command :=
  if byte < 240 then Option.none else all[(byte - 240).toNat]?

def iac : UInt8 := 255

def carriageReturn : UInt8 := 13

def lineFeed : UInt8 := 10

inductive Position where
  | wantLogin
  | wantPassword
  | waitDenial
  deriving DecidableEq, Repr

def denialTimeout : Nat := 1000

def maxAttempts : Nat := 3

/-- The macro `LINE_MAX`. -/
def lineMax : Nat := 256

inductive Field where
  | username
  | password
  deriving DecidableEq, Repr

/-- A pointer into a buffer is the buffer with an offset, and the base of a line has no offset. -/
structure ConnData where
  expect : Expect
  negVerb : Option Command
  position : Position
  protocolError : Bool
  closeReason : Option String
  denialTimeout : Nat
  attempts : Nat
  tag : Option Nat
  username : Bytes
  password : Bytes
  lineBase : Option Field
  line : Option (Field × Nat)
  deriving DecidableEq, Repr

/-- This is `telnet_conn_alloc`. -/
def connAlloc : ConnData where
  expect := .none
  negVerb := none
  position := .wantLogin
  protocolError := false
  closeReason := none
  denialTimeout := 0
  attempts := 0
  tag := none
  username := List.replicate (lineMax + 1) 0
  password := List.replicate (lineMax + 1) 0
  lineBase := none
  line := none

def ConnData.buffer (conn : ConnData) : Field → Bytes
  | .username => conn.username
  | .password => conn.password

def ConnData.write (conn : ConnData) (field : Field) (offset : Nat) (byte : UInt8) :
    Except Fault ConnData :=
  if offset < (conn.buffer field).length then
    match field with
    | .username => .ok { conn with username := conn.username.set offset byte }
    | .password => .ok { conn with password := conn.password.set offset byte }
  else .error .outside

/-- The line starts anew at the start of the buffer. -/
def ConnData.startLine (conn : ConnData) (field : Field) : ConnData :=
  { conn with line := some (field, 0), lineBase := some field }

def ConnData.awaitDenial (conn : ConnData) (id : Nat) : ConnData :=
  { conn with position := .waitDenial, denialTimeout := id }

/-- These are the fields that a new connection sets before its first prompt. -/
def ConnData.reset (conn : ConnData) : ConnData :=
  { conn with expect := .none, protocolError := false, position := .wantLogin }.startLine .username

/-- These are the fields that it sets behind the prompt. -/
def ConnData.assign (conn : ConnData) (tag : Nat) : ConnData :=
  { conn with tag := some tag, attempts := 0, closeReason := none }

def ConnData.wantLogin (conn : ConnData) : ConnData := { conn with position := .wantLogin }

def ConnData.countAttempt (conn : ConnData) : ConnData :=
  { conn with attempts := conn.attempts + 1 }

/-- These are the bytes of the buffer before its first zero. -/
def ConnData.text (conn : ConnData) (field : Field) : Bytes :=
  (conn.buffer field).takeWhile fun byte => byte != 0

end Data

section Bytes

/-- An error of `send` comes with its text. -/
abbrev Sending := Option String

def sendAll (conn : ConnData) (sending : Sending) : ConnData × Bool :=
  match sending with
  | none => (conn, true)
  | some error => ({ conn with closeReason := conn.closeReason <|> some error }, false)

/-- It does not matter whether the message can be sent. -/
def protocolError (conn : ConnData) (message : String) (sending : Sending) : ConnData × Bool :=
  let conn := { conn with protocolError := true, closeReason := conn.closeReason <|> some message }
  ((sendAll conn sending).1, false)

def eraseCharacter (conn : ConnData) : ConnData :=
  match conn.line with
  | some (field, offset + 1) => { conn with line := some (field, offset) }
  | _ => conn

def cmdHandle (conn : ConnData) (cmd : UInt8) (sending : Sending) : ConnData × Bool :=
  match Command.ofByte cmd with
  | some .se => protocolError conn "Unexpected SE" sending
  | some .nop | some .dm | some .break | some .ao | some .ayt | some .ga =>
    ({ conn with expect := .none }, true)
  | some .sb => ({ conn with expect := .params }, true)
  | some .will | some .wont | some .do | some .dont =>
    ({ conn with expect := .opcode, negVerb := Command.ofByte cmd }, true)
  | some .ip => protocolError conn "Interrupted" sending
  | some .ec => ({ eraseCharacter conn with expect := .none }, true)
  | some .el => ({ conn with line := conn.lineBase.map fun field => (field, 0) }, true)
  | some .iac | none =>
    protocolError conn ("Unknown telnet command " ++ toString cmd.toNat ++ "\n") sending

/-- An option that the other side turns on is refused. -/
def optionHandle (conn : ConnData) (sending : Sending) : ConnData × Bool :=
  if conn.negVerb = some .will ∨ conn.negVerb = some .do then
    match sendAll conn sending with
    | (conn, true) => ({ conn with expect := .none }, true)
    | (conn, false) => (conn, false)
  else ({ conn with expect := .none }, true)

def paramsHandle (conn : ConnData) (ch : UInt8) : ConnData :=
  if ch = iac then { conn with expect := .paramsEnd } else conn

def paramsEndHandle (conn : ConnData) (ch : UInt8) : ConnData :=
  if Command.ofByte ch = some .se then { conn with expect := .none }
  else { conn with expect := .params }

/-- A normal character is put to the line while there is space. -/
def normalHandle (conn : ConnData) (ch : UInt8) : Except Fault ConnData :=
  if ch = iac then .ok { conn with expect := .cmd }
  else if ch = carriageReturn then .ok { conn with expect := .lf }
  else
    match conn.line with
    | none => .ok conn
    | some (field, offset) =>
      if offset + 1 < lineMax then do
        let conn ← conn.write field offset ch
        .ok { conn with line := some (field, offset + 1) }
      else .ok conn

end Bytes

end Ucollect.Fake.Telnet
