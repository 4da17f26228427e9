import SplitKeyboard.LinkConfig

/-!
What the settings file of a keyboard says: the link and the pin level of the initiator. The file
has two sections; each key belongs to one of them.
-/
namespace SplitKeyboard

structure Settings where
  link : LinkConfig := LinkConfig.withDuplex {} .full
  initiatorLevel : Bool := true
  deriving DecidableEq

inductive Heading where
  | link
  | role
  deriving DecidableEq

namespace Heading

def name : Heading → String
  | link => "link"
  | role => "role"

def ofName? (name : String) : Option Heading :=
  [link, role].find? fun heading => heading.name == name

end Heading

inductive SettingKey where
  | speed
  | duplex
  | timeout
  | checkInterval
  | idleTimeout
  | initiatorLevel
  deriving DecidableEq

namespace SettingKey

def all : List SettingKey := [speed, duplex, timeout, checkInterval, idleTimeout, initiatorLevel]

def heading : SettingKey → Heading
  | initiatorLevel => .role
  | _ => .link

def name : SettingKey → String
  | speed => "speed"
  | duplex => "duplex"
  | timeout => "timeout_ms"
  | checkInterval => "connection_check_timeout_ms"
  | idleTimeout => "idle_timeout_ms"
  | initiatorLevel => "initiator_level"

def find? (heading : Heading) (name : String) : Option SettingKey :=
  all.find? fun key => key.heading == heading && key.name == name

theorem find?_name (key : SettingKey) : find? key.heading key.name = some key := by
  cases key <;> rfl

end SettingKey

inductive Setting where
  | speed (speed : Speed)
  | duplex (duplex : Duplex)
  | timeout (ms : UInt32)
  | checkInterval (ms : UInt32)
  | idleTimeout (ms : UInt32)
  | initiatorLevel (high : Bool)
  deriving DecidableEq

namespace Settings

/-- Applies one setting. A timeout takes the check interval along. -/
def set (settings : Settings) : Setting → Settings
  | .speed speed => { settings with link := settings.link.withSpeed speed }
  | .duplex duplex => { settings with link := settings.link.withDuplex duplex }
  | .timeout ms => { settings with link := settings.link.withTimeout ms }
  | .checkInterval ms => { settings with link := { settings.link with checkInterval := ms } }
  | .idleTimeout ms => { settings with link := { settings.link with idleTimeout := ms } }
  | .initiatorLevel high => { settings with initiatorLevel := high }

def isCheckInterval : Setting → Bool
  | .checkInterval _ => true
  | _ => false

/-- The defaults with a list of settings applied in order. A check interval that is given wins over
one that comes with a timeout, wherever it stands. -/
def ofList (list : List Setting) : Settings :=
  (list.filter (!isCheckInterval ·) ++ list.filter isCheckInterval).foldl set {}

end Settings
end SplitKeyboard
