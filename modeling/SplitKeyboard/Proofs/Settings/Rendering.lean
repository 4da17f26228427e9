import Mathlib.Data.List.Nodup
import SplitKeyboard.Settings.Check

/-!
How the contents of a settings file can be written down: its sections in any order, the keys of each
in any order, each on a line of its own. A reader of such a text need not know which of these ways
was taken.
-/
namespace SplitKeyboard

/-- A text that has these lines. A line is ended by a line feed, and a carriage return may stand
before that; the last line need not be ended if it holds something. -/
inductive Text.LaidOut : List (List Char) → List Char → Prop
  | nothing : LaidOut [] []
  | unended {line : List Char} (some : line ≠ []) : LaidOut [line] line
  | feed {line text : List Char} {lines : List (List Char)} (rest : LaidOut lines text) :
    LaidOut (line :: lines) (line ++ '\n' :: text)
  | returnFeed {line text : List Char} {lines : List (List Char)} (rest : LaidOut lines text) :
    LaidOut (line :: lines) (line ++ '\r' :: '\n' :: text)

/-- Decimal digits, with underscores at most between them. -/
structure ShowsNatural (n : Nat) (text : List Char) : Prop where
  digits : text.filter (· ≠ '_') = Nat.toDigits 10 n
  starts : text.head? ≠ some '_'
  ends : text.getLast? ≠ some '_'

namespace SettingsValue

/-- The ways to write a value. -/
def Shows : SettingsValue → List Char → Prop
  | integer n, shown => ∃ digits, ShowsNatural n.natAbs digits ∧
      shown = (if n < 0 then ['-'] else []) ++ digits
  | boolean b, shown => shown = (if b then "true" else "false").toList
  | text s, shown => shown = '"' :: s.toList ++ ['"']
  | table _, _ | other, _ => False

end SettingsValue

/-- What a table holds under one name. -/
abbrev SettingsEntry := String × SettingsValue

namespace SettingsEntry

/-- The line `key = value`. -/
def ShowsKey (entry : SettingsEntry) (line : List Char) : Prop :=
  ∃ text, entry.2.Shows text ∧ line = entry.1.toList ++ " = ".toList ++ text

/-- The line `[name]`, and the keys below it in any order. -/
def ShowsSection : SettingsEntry → List (List Char) → Prop
  | (name, .table entries), lines => ∃ (ordered : List SettingsEntry) (shown : List (List Char)),
      ordered.Perm entries ∧ List.Forall₂ ShowsKey ordered shown ∧
        lines = ('[' :: name.toList ++ [']']) :: shown
  | _, _ => False

end SettingsEntry

/-- The lines of a file with these sections, which may stand in any order. -/
def ShowsSections (sections : List SettingsEntry) (lines : List (List Char)) : Prop :=
  ∃ (ordered : List SettingsEntry) (parts : List (List (List Char))), ordered.Perm sections ∧
    List.Forall₂ SettingsEntry.ShowsSection ordered parts ∧ lines = parts.flatten

/-- No name stands twice in a table. -/
structure DistinctNames (sections : List SettingsEntry) : Prop where
  names : (sections.map Prod.fst).Nodup
  keys : ∀ name entries, (name, .table entries) ∈ sections → (entries.map Prod.fst).Nodup

/-- The value that a file with these sections gives a key. -/
def Gives (sections : List SettingsEntry) (key : SettingKey) (value : SettingsValue) : Prop :=
  ∃ entries, (key.heading.name, .table entries) ∈ sections ∧ (key.name, value) ∈ entries

theorem DistinctNames.eq_of_mem {entries : List SettingsEntry} {name : String}
    {v w : SettingsValue} (distinct : (entries.map Prod.fst).Nodup) (first : (name, v) ∈ entries)
    (second : (name, w) ∈ entries) : v = w :=
  congrArg Prod.snd (List.inj_on_of_nodup_map distinct first second rfl)

/-- A key is given one value at most. -/
theorem Gives.unique {sections : List SettingsEntry} {key : SettingKey} {v w : SettingsValue}
    (distinct : DistinctNames sections) (first : Gives sections key v)
    (second : Gives sections key w) : v = w := by
  obtain ⟨entries, placed, given⟩ := first
  obtain ⟨others, also_placed, also_given⟩ := second
  have same := DistinctNames.eq_of_mem distinct.names placed also_placed
  cases same
  exact DistinctNames.eq_of_mem (distinct.keys _ _ placed) given also_given

namespace Setting

def key : Setting → SettingKey
  | speed _ => .speed
  | duplex _ => .duplex
  | timeout _ => .timeout
  | checkInterval _ => .checkInterval
  | idleTimeout _ => .idleTimeout
  | initiatorLevel _ => .initiatorLevel

/-- The values that a setting can be told by, as long as the keyboard can run on it. -/
inductive ToldBy : Setting → SettingsValue → Prop
  | speed (speed : Speed) : ToldBy (.speed speed) (.integer speed.baudrate)
  | duplex : ToldBy (.duplex .full) (.text "full")
  | timeout {ms : UInt32} (waits : ms ≠ 0) : ToldBy (.timeout ms) (.integer ms.toNat)
  | checkInterval (ms : UInt32) : ToldBy (.checkInterval ms) (.integer ms.toNat)
  | idleTimeout {ms : UInt32} (waits : ms ≠ 0) : ToldBy (.idleTimeout ms) (.integer ms.toNat)
  | flag (high : Bool) : ToldBy (.initiatorLevel high) (.boolean high)
  | level (high : Bool) : ToldBy (.initiatorLevel high) (.text (if high then "high" else "low"))

end Setting

/-- What a key decides: the value that the file gives it, or else what is left without it. -/
def Decides (sections : List SettingsEntry) (key : SettingKey) (told : SettingsValue → Prop)
    (left : Prop) : Prop :=
  (∀ value, Gives sections key value → told value) ∧ ((∀ value, ¬ Gives sections key value) → left)

theorem Decides.elim {sections : List SettingsEntry} {key : SettingKey}
    {told : SettingsValue → Prop} {left goal : Prop} (decides : Decides sections key told left)
    (given : ∀ value, told value → goal) (absent : left → goal) : goal := by
  by_cases gives : ∃ value, Gives sections key value
  · obtain ⟨value, gives⟩ := gives
    exact given value (decides.1 value gives)
  · exact absent (decides.2 (not_exists.mp gives))

/-- The settings that a file with these sections stands for. -/
structure StandsFor (sections : List SettingsEntry) (settings : Settings) : Prop where
  speed : Decides sections .speed (· = .integer settings.link.line.speed.baudrate)
    (settings.link.line.speed = ({} : Settings).link.line.speed)
  duplex : Decides sections .duplex (fun value => value = .text "full" ∧
      settings.link.line.duplex = .full)
    (settings.link.line.duplex = ({} : Settings).link.line.duplex)
  timeout : Decides sections .timeout (· = .integer settings.link.timeout.toNat)
    (settings.link.timeout = ({} : Settings).link.timeout)
  idleTimeout : Decides sections .idleTimeout (· = .integer settings.link.idleTimeout.toNat)
    (settings.link.idleTimeout = ({} : Settings).link.idleTimeout)
  /-- An interval that is not given goes with the timeout, if this is given. -/
  checkInterval : Decides sections .checkInterval (· = .integer settings.link.checkInterval.toNat)
    (Decides sections .timeout
      (fun value => ∃ ms : Nat, value = .integer ms ∧
        settings.link.checkInterval.toNat = min (5 * ms) (UInt32.size - 1))
      (settings.link.checkInterval = ({} : Settings).link.checkInterval))
  initiatorLevel : Decides sections .initiatorLevel
    (fun value => value = .boolean settings.initiatorLevel ∨
      value = .text (if settings.initiatorLevel then "high" else "low"))
    (settings.initiatorLevel = ({} : Settings).initiatorLevel)

end SplitKeyboard
