import Ucollect.Construction.Flow.Filter
import Ucollect.Construction.Master.DiffCache

/-
This file models the filters of master/flow_plugin.py, as texts and as messages.
-/

namespace Ucollect.Master
open Library Flow

section Token

def newline : UInt8 := letter '\n'

/-- This is `\s`. -/
def isSpace (byte : UInt8) : Bool :=
  byte = letter ' ' ∨ byte = letter '\t' ∨ byte = newline ∨ byte = letter '\r' ∨ byte = 11 ∨ byte = 12

/-- This is `[,\(\)]`. -/
def isSeparator (byte : UInt8) : Bool :=
  byte = letter ',' ∨ byte = letter '(' ∨ byte = letter ')'

structure Token where
  token : Bytes
  separator : UInt8
  rest : Bytes
  deriving DecidableEq, Repr

/-- This is `\s*([,\(\)])(.*)`. The dot stands for no newline. -/
def matchEnd (text : Bytes) : Option Token :=
  match text.dropWhile isSpace with
  | [] => none
  | byte :: rest =>
    if isSeparator byte then some ⟨[], byte, rest.takeWhile (· ≠ newline)⟩ else none

/-- This is `(.*?)\s*([,\(\)])(.*)`. The shortest token is taken. -/
def matchToken : Bytes → Option Token
  | [] => none
  | byte :: text =>
    match matchEnd (byte :: text) with
    | some found => some found
    | none =>
      if byte = newline then none
      else (matchToken text).map fun found => { found with token := byte :: found.token }

/-- This is the method `token`. The parenthesis at the start is only skipped when something else
follows it. -/
def token (param : Bytes) : Option Token :=
  let behind := match param with
    | byte :: text => if byte = letter '(' then matchToken (text.dropWhile isSpace) else none
    | [] => none
  match behind with
  | some found => some found
  | none => matchToken (param.dropWhile isSpace)

end Token

/-- These are the objects of the classes in `filter_index`. -/
inductive Filter where
  | constant (value : Bool)
  | negation (subs : List Filter)
  | conjunction (subs : List Filter)
  | disjunction (subs : List Filter)
  | addresses (side : Side) (ips : List Bytes)
  | ports (side : Side) (ports : List Int)
  | differential (side : Side) (name : Bytes)
  | range (side : Side) (addr : Bytes) (mask : Int)

def Filter.code : Filter → UInt8
  | .constant true => letter 'T'
  | .constant false => letter 'F'
  | .negation _ => letter '!'
  | .conjunction _ => letter '&'
  | .disjunction _ => letter '|'
  | .addresses .near _ => letter 'i'
  | .addresses .remote _ => letter 'I'
  | .ports .near _ => letter 'p'
  | .ports .remote _ => letter 'P'
  | .differential .near _ => letter 'd'
  | .differential .remote _ => letter 'D'
  | .range .near _ _ => letter 'r'
  | .range .remote _ _ => letter 'R'

section Parse

/-- The characters of a text are its bytes. -/
def asText (bytes : Bytes) : Text := bytes.map fun byte => Char.ofNat byte.toNat

/-- Each turn of the loop takes a separator, so the length is enough fuel. -/
def getValues : Nat → Bytes → List Bytes × Bytes
  | 0, param => ([], param)
  | fuel + 1, param =>
    match token param with
    | none => ([], param)
    | some found =>
      let values := if found.token ≠ [] then [found.token] else []
      if found.separator ≠ letter ')' then
        let (more, param) := getValues fuel found.rest
        (values ++ more, param)
      else (values, found.rest)

/-- The class of a sub is looked up by its token. An empty token is no sub. -/
def takeSub (parse : Bytes → Bytes → Option (Filter × Bytes)) (found : Token) :
    Option (List Filter × Bytes) :=
  if found.token ≠ [] then
    (parse found.token found.rest).map fun (sub, param) => ([sub], param)
  else some ([], found.rest)

/-- An exception leaves the loop. -/
def getSubs (parse : Bytes → Bytes → Option (Filter × Bytes)) :
    Nat → Bytes → Option (List Filter × Bytes)
  | 0, param => some ([], param)
  | fuel + 1, param =>
    match token param with
    | none => some ([], param)
    | some found => do
      let (subs, param) ← takeSub parse found
      if found.separator ≠ letter ')' then
        let (more, param) ← getSubs parse fuel param
        some (subs ++ more, param)
      else some (subs, param)

def parsePorts (make : List Int → Filter) (param : Bytes) : Option (Filter × Bytes) :=
  let (values, param) := getValues param.length param
  (values.mapM fun value => intText (asText value)).map fun ports => (make ports, param)

/-- Another number of values raises an exception. -/
def parseDifferential (make : Bytes → Filter) (param : Bytes) : Option (Filter × Bytes) :=
  match getValues param.length param with
  | ([name], param) => some (make name, param)
  | _ => none

def parseRange (make : Bytes → Int → Filter) (param : Bytes) : Option (Filter × Bytes) :=
  match getValues param.length param with
  | ([addr, mask], param) => (intText (asText mask)).map fun mask => (make addr mask, param)
  | _ => none

def parseAddresses (make : List Bytes → Filter) (param : Bytes) : Option (Filter × Bytes) :=
  let (ips, param) := getValues param.length param
  some (make ips, param)

def parseSubs (make : List Filter → Filter) (parse : Bytes → Bytes → Option (Filter × Bytes))
    (param : Bytes) : Option (Filter × Bytes) :=
  (getSubs parse param.length param).map fun (subs, param) => (make subs, param)

/-- This is `parse` of the class that `filter_index` has for the code. The fuel bounds the depth. -/
def parse (fuel : Nat) (code param : Bytes) : Option (Filter × Bytes) :=
  match fuel with
  | 0 => none
  | fuel + 1 =>
    if code = [letter 'T'] then some (.constant true, param)
    else if code = [letter 'F'] then some (.constant false, param)
    else if code = [letter '!'] then parseSubs .negation (parse fuel) param
    else if code = [letter '&'] then parseSubs .conjunction (parse fuel) param
    else if code = [letter '|'] then parseSubs .disjunction (parse fuel) param
    else if code = [letter 'i'] then parseAddresses (.addresses .near) param
    else if code = [letter 'I'] then parseAddresses (.addresses .remote) param
    else if code = [letter 'p'] then parsePorts (.ports .near) param
    else if code = [letter 'P'] then parsePorts (.ports .remote) param
    else if code = [letter 'd'] then parseDifferential (.differential .near) param
    else if code = [letter 'D'] then parseDifferential (.differential .remote) param
    else if code = [letter 'r'] then parseRange (.range .near) param
    else if code = [letter 'R'] then parseRange (.range .remote) param
    else none

/-- The first character of a text is its code. Each nested filter takes a character at least. -/
def parseText (text : Bytes) : Option (Filter × Bytes) :=
  match text with
  | [] => none
  | code :: param => parse text.length [code] param

end Parse

section Render

def parentheses (inner : Bytes) : Bytes := letter '(' :: (inner ++ [letter ')'])

/-- This is `','.join`. -/
def commas (texts : List Bytes) : Bytes := [letter ','].intercalate texts

/-- This is `str` of a number. -/
def strInt (value : Int) : Bytes :=
  (if value < 0 then [letter '-'] else []) ++
    (Nat.toDigits 10 value.natAbs).map fun char => char.toNat.toUInt8

mutual

/-- This is `str` of a filter. -/
def Filter.str : Filter → Bytes
  | .constant value => [(Filter.constant value).code]
  | .negation subs => (Filter.negation subs).code :: parentheses (commas (strAll subs))
  | .conjunction subs => (Filter.conjunction subs).code :: parentheses (commas (strAll subs))
  | .disjunction subs => (Filter.disjunction subs).code :: parentheses (commas (strAll subs))
  | .addresses side ips => (Filter.addresses side ips).code :: parentheses (commas ips)
  | .ports side ports => (Filter.ports side ports).code :: parentheses (commas (ports.map strInt))
  | .differential side name => (Filter.differential side name).code :: parentheses name
  | .range side addr mask =>
    (Filter.range side addr mask).code :: parentheses (commas [addr, strInt mask])

def strAll : List Filter → List Bytes
  | [] => []
  | sub :: subs => sub.str :: strAll subs

end

variable (inetPton : Family → Text → Option Bytes)

/-- The other family is tried when the first one raises an exception. -/
def convert (addr : Bytes) : Option (Family × Bytes) :=
  match inetPton .inet (asText addr) with
  | some bytes => some (.inet, bytes)
  | none => (inetPton .inet6 (asText addr)).map fun bytes => (.inet6, bytes)

def encodeIp (ip : Bytes) : Option Bytes :=
  (convert inetPton ip).map fun (family, bytes) =>
    (if family = .inet then 4 else 16) :: bytes

/-- A port or the number of ports that is out of range raises an exception. -/
def serializePorts (ports : List Int) : Option Bytes := do
  let count ← packShort ports.length
  let packed ← ports.mapM packShort
  some (count ++ packed.flatten)

def serializeRange (addr : Bytes) (mask : Int) : Option Bytes := do
  let (family, bytes) ← convert inetPton addr
  if 0 ≤ mask ∧ mask < 256 then
    some ((if family = .inet6 then 6 else 4) :: mask.toNat.toUInt8 ::
      bytes.take ((mask.toNat + 7) / 8))
  else none

mutual

/-- An exception has no result. -/
def Filter.serialize : Filter → Option Bytes
  | .constant value => some [(Filter.constant value).code]
  | .negation [] => none
  | .negation (sub :: subs) =>
    sub.serialize.map fun body => (Filter.negation (sub :: subs)).code :: body
  | .conjunction subs => do
    let count ← packInt subs.length
    let body ← serializeAll subs
    some ((Filter.conjunction subs).code :: (count ++ body))
  | .disjunction subs => do
    let count ← packInt subs.length
    let body ← serializeAll subs
    some ((Filter.disjunction subs).code :: (count ++ body))
  | .addresses side ips => do
    let count ← packInt ips.length
    let body ← ips.mapM (encodeIp inetPton)
    some ((Filter.addresses side ips).code :: (count ++ body.flatten))
  | .ports side ports =>
    (serializePorts ports).map fun body => (Filter.ports side ports).code :: body
  | .differential side name =>
    (packInt name.length).map fun count =>
      (Filter.differential side name).code :: (count ++ name)
  | .range side addr mask =>
    (serializeRange inetPton addr mask).map fun body =>
      (Filter.range side addr mask).code :: body

def serializeAll : List Filter → Option Bytes
  | [] => some []
  | sub :: subs => do
    let first ← sub.serialize
    let rest ← serializeAll subs
    some (first ++ rest)

end

end Render

end Ucollect.Master
