import SplitKeyboard.Settings.Basic
import SplitKeyboard.Text.Blank
import SplitKeyboard.Text.Lines

/-!
Reading the settings file on the keyboard itself. It is a small language: section headers, lines
`key = value`, comments. The first line that makes no sense decides the error; whether the link can
run on the result is looked at last.
-/
namespace SplitKeyboard

inductive SettingsError where
  | invalidSection
  | unknownKey
  | invalidValue
  | unsupportedSpeed (rate : Nat)
  /-- One shared wire, which the UART cannot drive. -/
  | unsupportedDuplex
  /-- Every value makes sense, and yet the link cannot run on them. -/
  | invalid (cause : ConfigError)
  deriving DecidableEq

def SettingsError.message : SettingsError → String
  | invalidSection => "InvalidSection"
  | unknownKey => "UnknownKey"
  | invalidValue => "InvalidValue"
  | unsupportedSpeed rate => "UnsupportedSpeed(" ++ toString rate ++ ")"
  | unsupportedDuplex => "UnsupportedDuplex"
  | invalid cause => "Invalid(" ++ cause.message ++ ")"

namespace Settings

inductive Statement where
  | nothing
  | header (name : List Char)
  | assignment (key value : List Char)
  | malformed
  deriving DecidableEq

/-- Cuts a comment off a value. A hash begins one unless a string is open there, that is, unless an
odd number of quotes stands before it; only the first hash counts. -/
def cutComment (value : List Char) : List Char :=
  let before := value.takeWhile (· ≠ '#')
  if before.count '"' % 2 = 0 then Text.trim before else value

/-- Reads `key = value` at the first equals sign. Neither side may be empty. -/
def readAssignment (line : List Char) : Statement :=
  if '=' ∈ line then
    let key := Text.trim (line.takeWhile (· ≠ '='))
    let value := cutComment (Text.trim ((line.dropWhile (· ≠ '=')).drop 1))
    if key = [] ∨ value = [] then .malformed else .assignment key value
  else .malformed

/-- What a trimmed line says. A header is told by its first and last characters. -/
def Statement.ofTrimmed (line : List Char) : Statement :=
  if line = [] ∨ line.head? = some '#' then .nothing
  else if line.head? = some '[' ∧ line.getLast? = some ']' then
    .header (Text.trim line.tail.dropLast)
  else readAssignment line

def unquote (value : List Char) : List Char :=
  if value.head? = some '"' ∧ value.getLast? = some '"' ∧ 2 ≤ value.length then
    value.tail.dropLast
  else value

/-- The most characters that a number can have beside underscores. -/
def numberLimit : Nat := 16

/-- Reads a decimal number of 32 bits. Underscores are ignored wherever they stand, and one plus
sign may lead. -/
def readNumber (value : List Char) : Option UInt32 :=
  let written := value.filter (· ≠ '_')
  let digits := if written.head? = some '+' then written.tail else written
  if numberLimit < written.length ∨ digits = [] ∨ !digits.all Char.isDigit then none
  else
    let n := digits.foldl (fun n c => 10 * n + (c.toNat - '0'.toNat)) 0
    if n < UInt32.size then some (UInt32.ofNat n) else none

def numberOr (value : List Char) (make : UInt32 → Setting) : Except SettingsError Setting :=
  match readNumber value with
  | some n => .ok (make n)
  | none => .error .invalidValue

def readValue (key : SettingKey) (value : List Char) : Except SettingsError Setting :=
  match key with
  | .speed =>
    match readNumber value with
    | none => .error .invalidValue
    | some rate =>
      match Speed.ofBaudrate? rate.toNat with
      | some speed => .ok (.speed speed)
      | none => .error (.unsupportedSpeed rate.toNat)
  | .duplex =>
    if unquote value = "half".toList then .error .unsupportedDuplex
    else if unquote value = "full".toList then .ok (.duplex .full)
    else .error .invalidValue
  | .timeout => numberOr value .timeout
  | .checkInterval => numberOr value .checkInterval
  | .idleTimeout => numberOr value .idleTimeout
  | .initiatorLevel =>
    if unquote value = "true".toList ∨ unquote value = "high".toList then
      .ok (.initiatorLevel true)
    else if unquote value = "false".toList ∨ unquote value = "low".toList then
      .ok (.initiatorLevel false)
    else .error .invalidValue

/-- Reads an assignment under a heading. Before the first heading no key is known. -/
def readSetting (heading : Option Heading) (key value : List Char) :
    Except SettingsError Setting :=
  match heading.bind fun heading => SettingKey.find? heading (String.ofList key) with
  | none => .error .unknownKey
  | some key => readValue key value

def readLines : Option Heading → List (List Char) → Except SettingsError (List Setting)
  | _, [] => .ok []
  | heading, line :: rest =>
    match Statement.ofTrimmed (Text.trim line) with
    | .nothing => readLines heading rest
    | .malformed => .error .invalidValue
    | .header name =>
      match Heading.ofName? (String.ofList name) with
      | none => .error .invalidSection
      | some heading => readLines (some heading) rest
    | .assignment key value =>
      match readSetting heading key value with
      | .error error => .error error
      | .ok setting => (readLines heading rest).map (setting :: ·)

/-- Reads a settings file. Keys that it leaves out keep their defaults. -/
def parse (text : List Char) : Except SettingsError Settings :=
  match readLines none (Text.lines text) with
  | .error error => .error error
  | .ok list =>
    match (ofList list).link.validate with
    | .error cause => .error (.invalid cause)
    | .ok () => .ok (ofList list)

end Settings
end SplitKeyboard
