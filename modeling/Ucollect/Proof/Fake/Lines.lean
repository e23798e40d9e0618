import Mathlib.Tactic
import Ucollect.Construction.Fake.Telnet

/-
The line of an open connection is in the buffer that its position asks for, and a single byte keeps
it there.
-/

namespace Ucollect.Fake.Telnet
open Library List

section Lines

variable {conn after : ConnData}

/-- The line is inside its buffer, with space for the final zero. -/
structure ConnData.Sound (conn : ConnData) : Prop where
  username : conn.username.length = lineMax + 1
  password : conn.password.length = lineMax + 1
  base : conn.lineBase = conn.line.map Prod.fst
  line : ∀ field offset, conn.line = some (field, offset) → offset < lineMax

/-- An open connection has the line that its position asks for. -/
def ConnData.Ready (conn : ConnData) : Prop :=
  match conn.position with
  | .wantLogin => ∃ offset, conn.line = some (.username, offset)
  | .wantPassword => ∃ offset, conn.line = some (.password, offset)
  | .waitDenial => conn.line = none

theorem ConnData.Sound.congr (sound : conn.Sound) (username : after.username = conn.username)
    (password : after.password = conn.password) (base : after.lineBase = conn.lineBase)
    (line : after.line = conn.line) : after.Sound := by
  constructor
  case username => rw [username, sound.username]
  case password => rw [password, sound.password]
  case base => rw [base, line, sound.base]
  case line => rw [line]; exact sound.line

/-- A change inside of a line leaves the rest of the dialogue alone. -/
structure Edits (before after : ConnData) : Prop where
  position : after.position = before.position
  denialTimeout : after.denialTimeout = before.denialTimeout
  tag : after.tag = before.tag
  sound : before.Sound → after.Sound
  ready : before.Sound → before.Ready → after.Ready

/-- A sound buffer has room for a line and its end. -/
theorem ConnData.Sound.length (sound : conn.Sound) (field : Field) :
    (conn.buffer field).length = lineMax + 1 := by
  cases field with
  | username => exact sound.username
  | password => exact sound.password

/-- A new connection is sound. -/
theorem connAlloc_sound : connAlloc.Sound where
  username := length_replicate
  password := length_replicate
  base := rfl
  line _ _ same := by cases same

/-- A step that leaves the line alone is an edit. -/
theorem Edits.of_line (position : after.position = conn.position)
    (timeout : after.denialTimeout = conn.denialTimeout) (tag : after.tag = conn.tag)
    (username : after.username = conn.username) (password : after.password = conn.password)
    (base : after.lineBase = conn.lineBase) (line : after.line = conn.line) : Edits conn after where
  position
  denialTimeout := timeout
  tag
  sound sound := sound.congr username password base line
  ready _ ready := by
    rw [ConnData.Ready, position, line]
    exact ready

/-- Two edits in a row are one. -/
theorem Edits.trans {middle : ConnData} (first : Edits conn middle) (second : Edits middle after) :
    Edits conn after where
  position := second.position.trans first.position
  denialTimeout := second.denialTimeout.trans first.denialTimeout
  tag := second.tag.trans first.tag
  sound sound := second.sound (first.sound sound)
  ready sound ready := second.ready (first.sound sound) (first.ready sound ready)

/-- Sending leaves the line alone. -/
theorem edits_sendAll (conn : ConnData) (sending : Sending) :
    Edits conn (sendAll conn sending).1 := by
  cases sending with
  | none => exact Edits.of_line rfl rfl rfl rfl rfl rfl rfl
  | some error => exact Edits.of_line rfl rfl rfl rfl rfl rfl rfl

/-- A protocol error leaves the line alone. -/
theorem edits_protocolError (conn : ConnData) (message : String) (sending : Sending) :
    Edits conn (protocolError conn message sending).1 := by
  have said : Edits conn { conn with
      protocolError := true, closeReason := conn.closeReason <|> some message } :=
    Edits.of_line rfl rfl rfl rfl rfl rfl rfl
  exact said.trans (edits_sendAll _ sending)

/-- The line may get any offset that is inside of the buffer. -/
theorem edits_offset {field : Field} {offset moved : Nat} (line : conn.line = some (field, offset))
    (small : moved < lineMax) : Edits conn { conn with line := some (field, moved) } where
  position := rfl
  denialTimeout := rfl
  tag := rfl
  sound sound := by
    refine { sound with base := ?base, line := ?line }
    case base => simp [sound.base, line]
    case line =>
      intro other place same
      cases same
      exact small
  ready _ ready := by
    unfold ConnData.Ready at ready ⊢
    cases position : conn.position with
    | wantLogin =>
      rw [position] at ready
      obtain ⟨_, same⟩ := ready
      rw [line] at same
      cases same
      exact ⟨moved, rfl⟩
    | wantPassword =>
      rw [position] at ready
      obtain ⟨_, same⟩ := ready
      rw [line] at same
      cases same
      exact ⟨moved, rfl⟩
    | waitDenial =>
      rw [position] at ready
      rw [line] at ready
      cases ready

theorem edits_refl (conn : ConnData) : Edits conn conn := Edits.of_line rfl rfl rfl rfl rfl rfl rfl

/-- Erasing a character is an edit. -/
theorem edits_eraseCharacter (sound : conn.Sound) : Edits conn (eraseCharacter conn) := by
  unfold eraseCharacter
  split
  case h_1 field offset line =>
    have small := sound.line field _ line
    exact edits_offset line (by omega)
  case h_2 => exact edits_refl conn

/-- Erasing the line is an edit. -/
theorem edits_eraseLine (sound : conn.Sound) :
    Edits conn { conn with line := conn.lineBase.map fun field => (field, 0) } := by
  have base := sound.base
  cases line : conn.line with
  | none =>
    rw [line] at base
    exact Edits.of_line rfl rfl rfl rfl rfl rfl (by simp [base, line])
  | some place =>
    obtain ⟨field, offset⟩ := place
    rw [line] at base
    have start : 0 < lineMax := by decide
    have edits := edits_offset line start
    simpa [base, line] using edits

/-- Every telnet command is an edit. -/
theorem edits_cmdHandle (sound : conn.Sound) (cmd : UInt8) (sending : Sending) :
    Edits conn (cmdHandle conn cmd sending).1 := by
  unfold cmdHandle
  generalize Command.ofByte cmd = command
  cases command with
  | none => exact edits_protocolError conn _ sending
  | some command =>
    cases command with
    | se => exact edits_protocolError conn _ sending
    | ip => exact edits_protocolError conn _ sending
    | iac => exact edits_protocolError conn _ sending
    | ec =>
      apply (edits_eraseCharacter sound).trans
      exact Edits.of_line rfl rfl rfl rfl rfl rfl rfl
    | el => exact edits_eraseLine sound
    | _ => exact Edits.of_line rfl rfl rfl rfl rfl rfl rfl

theorem edits_optionHandle (conn : ConnData) (sending : Sending) :
    Edits conn (optionHandle conn sending).1 := by
  have sent := edits_sendAll conn sending
  unfold optionHandle
  split
  case isTrue =>
    split
    case h_1 middle same =>
      rw [same] at sent
      exact sent.trans (Edits.of_line rfl rfl rfl rfl rfl rfl rfl)
    case h_2 middle same =>
      rw [same] at sent
      exact sent
  case isFalse => exact Edits.of_line rfl rfl rfl rfl rfl rfl rfl

theorem edits_paramsHandle (conn : ConnData) (ch : UInt8) : Edits conn (paramsHandle conn ch) := by
  unfold paramsHandle
  split
  case isTrue => exact Edits.of_line rfl rfl rfl rfl rfl rfl rfl
  case isFalse => exact edits_refl conn

theorem edits_paramsEndHandle (conn : ConnData) (ch : UInt8) :
    Edits conn (paramsEndHandle conn ch) := by
  unfold paramsEndHandle
  split
  case isTrue => exact Edits.of_line rfl rfl rfl rfl rfl rfl rfl
  case isFalse => exact Edits.of_line rfl rfl rfl rfl rfl rfl rfl

/-- A write inside of the line is inside of the buffer. -/
theorem write_ok (sound : conn.Sound) (field : Field) {offset : Nat} (small : offset < lineMax)
    (byte : UInt8) : ∃ after, conn.write field offset byte = .ok after ∧ Edits conn after ∧
      after.line = conn.line ∧ after.lineBase = conn.lineBase ∧
      after.buffer field = (conn.buffer field).set offset byte ∧
      ∀ other ≠ field, after.buffer other = conn.buffer other := by
  have inside : offset < (conn.buffer field).length := by
    rw [sound.length]
    omega
  cases field with
  | username =>
    refine ⟨_, if_pos inside, ?_, rfl, rfl, rfl, ?_⟩
    · constructor
      case position => rfl
      case denialTimeout => rfl
      case tag => rfl
      case sound =>
        intro sound
        exact ⟨by rw [length_set, sound.username], sound.password, sound.base, sound.line⟩
      case ready => exact fun _ ready => ready
    · intro other different
      cases other with
      | username => exact absurd rfl different
      | password => rfl
  | password =>
    refine ⟨_, if_pos inside, ?_, rfl, rfl, rfl, ?_⟩
    · constructor
      case position => rfl
      case denialTimeout => rfl
      case tag => rfl
      case sound =>
        intro sound
        exact ⟨sound.username, by rw [length_set, sound.password], sound.base, sound.line⟩
      case ready => exact fun _ ready => ready
    · intro other different
      cases other with
      | username => rfl
      | password => exact absurd rfl different

/-- An ordinary byte never leaves the buffer. -/
theorem edits_normalHandle (sound : conn.Sound) (ch : UInt8) :
    ∃ after, normalHandle conn ch = .ok after ∧ Edits conn after := by
  unfold normalHandle
  split
  case isTrue => exact ⟨_, rfl, Edits.of_line rfl rfl rfl rfl rfl rfl rfl⟩
  case isFalse =>
    split
    case isTrue => exact ⟨_, rfl, Edits.of_line rfl rfl rfl rfl rfl rfl rfl⟩
    case isFalse =>
      split
      case h_1 => exact ⟨conn, rfl, edits_refl conn⟩
      case h_2 field offset line =>
        split
        case isTrue space =>
          have small := sound.line field offset line
          obtain ⟨after, written, edits, same, -⟩ := write_ok sound field small ch
          rw [written]
          exact ⟨_, rfl, edits.trans (edits_offset (same.trans line) space)⟩
        case isFalse => exact ⟨conn, rfl, edits_refl conn⟩

end Lines

end Ucollect.Fake.Telnet
