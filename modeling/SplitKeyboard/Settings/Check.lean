import SplitKeyboard.Settings.Basic

/-!
Checking the settings when the firmware is built, where the file has been read by a full reader and
there is room to name every fault. The complaints come in a fixed order: those about sections and
keys by name, then those about values in the order of the keys.
-/
namespace SplitKeyboard

inductive SettingsValue where
  | integer (n : Int)
  | boolean (b : Bool)
  | text (s : String)
  | table (entries : List (String × SettingsValue))
  /-- Anything that no key takes, such as a fraction or a list. -/
  | other
  deriving Inhabited

inductive Complaint where
  | unknownSection (name : String)
  | notASection (name : String)
  | unknownKey (heading : Heading) (name : String)
  | speedNotSupported (rate : Int)
  | needsOpenDrain
  | duplexNotFull
  | notText (key : SettingKey)
  | notInteger (key : SettingKey)
  | outOfRange (key : SettingKey) (least : Nat)
  | notALevel
  deriving DecidableEq

namespace Complaint

/-- The words `[section] key`, with which a complaint about a value begins. -/
def place (key : SettingKey) : String := "[" ++ key.heading.name ++ "] " ++ key.name

def message : Complaint → String
  | unknownSection name => "Unknown section [" ++ name ++ "]"
  | notASection name => "'" ++ name ++ "' must be a section"
  | unknownKey heading name => "[" ++ heading.name ++ "] unknown key '" ++ name ++ "'"
  | speedNotSupported rate => place .speed ++ " " ++ toString rate ++ " is not supported"
  | needsOpenDrain => place .duplex ++ " 'half' needs an open-drain TX pad"
  | duplexNotFull => place .duplex ++ " must be 'full'"
  | notText key => place key ++ " must be a string"
  | notInteger key => place key ++ " must be an integer"
  | outOfRange key least =>
    place key ++ " must be " ++ toString least ++ "-" ++ toString (UInt32.size - 1)
  | notALevel => place .initiatorLevel ++ " must be true/false or 'high'/'low'"

end Complaint

namespace SettingsValue

def entries? : SettingsValue → Option (List (String × SettingsValue))
  | table entries => some (entries.mergeSort fun a b => decide (a.1 ≤ b.1))
  | _ => none

def get? (value : SettingsValue) (name : String) : Option SettingsValue :=
  value.entries?.bind fun entries => entries.lookup name

def setting? (root : SettingsValue) (key : SettingKey) : Option SettingsValue :=
  (root.get? key.heading.name).bind fun part => part.get? key.name

def checkKeys (heading : Heading) (entries : List (String × SettingsValue)) : List Complaint :=
  entries.filterMap fun (name, _) =>
    match SettingKey.find? heading name with
    | some _ => none
    | none => some (.unknownKey heading name)

/-- Complains about sections that nothing reads, values in place of sections, and unknown keys. -/
def checkSections (root : SettingsValue) : List Complaint :=
  (root.entries?.getD []).flatMap fun (name, value) =>
    match Heading.ofName? name with
    | none => [.unknownSection name]
    | some heading =>
      match value.entries? with
      | none => [.notASection name]
      | some entries => checkKeys heading entries

def checkSpeed : SettingsValue → List Complaint
  | integer rate =>
    if Speed.all.any fun speed => (speed.baudrate : Int) == rate then []
    else [.speedNotSupported rate]
  | _ => [.notInteger .speed]

def checkDuplex : SettingsValue → List Complaint
  | text "half" => [.needsOpenDrain]
  | text "full" => []
  | text _ => [.duplexNotFull]
  | _ => [.notText .duplex]

/-- Checks a time that must be at least `least` milliseconds and fit a word. -/
def checkTime (key : SettingKey) (least : Nat) : SettingsValue → List Complaint
  | integer ms => if (least : Int) ≤ ms ∧ ms < UInt32.size then [] else [.outOfRange key least]
  | _ => [.notInteger key]

def checkLevel : SettingsValue → List Complaint
  | boolean _ => []
  | text "high" => []
  | text "low" => []
  | _ => [.notALevel]

def checkValue (key : SettingKey) (value : SettingsValue) : List Complaint :=
  match key with
  | .speed => checkSpeed value
  | .duplex => checkDuplex value
  | .timeout => checkTime key 1 value
  | .checkInterval => checkTime key 0 value
  | .idleTimeout => checkTime key 1 value
  | .initiatorLevel => checkLevel value

/-- Everything that is wrong with a settings file; nothing if the keyboard can be built with it. -/
def check (root : SettingsValue) : List Complaint :=
  root.checkSections ++
    SettingKey.all.flatMap fun key =>
      match root.setting? key with
      | none => []
      | some value => checkValue key value

end SettingsValue
end SplitKeyboard
