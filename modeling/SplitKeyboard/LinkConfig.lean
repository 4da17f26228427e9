import SplitKeyboard.Line

/-!
The settings of a link: its line and its three times. All times are in milliseconds.
-/
namespace SplitKeyboard

structure LinkConfig where
  line : Line := {}
  timeout : UInt32 := 50
  checkInterval : UInt32 := 250
  /-- How long the target waits for an ID before it reports that none came. -/
  idleTimeout : UInt32 := 1000
  deriving DecidableEq

inductive ConfigError where
  | zeroTimeout
  | zeroIdleTimeout
  deriving DecidableEq

def ConfigError.message : ConfigError → String
  | zeroTimeout => "ZeroTimeout"
  | zeroIdleTimeout => "ZeroIdleTimeout"

namespace LinkConfig

/-- The interval that goes with a timeout nobody paired with one: five timeouts, or as many
milliseconds as fit. -/
def intervalFor (timeout : UInt32) : UInt32 :=
  UInt32.ofNat (min (5 * timeout.toNat) (UInt32.size - 1))

def withTimeout (config : LinkConfig) (timeout : UInt32) : LinkConfig :=
  { config with timeout, checkInterval := intervalFor timeout }

def withDuplex (config : LinkConfig) (duplex : Duplex) : LinkConfig :=
  { config with line := { config.line with duplex } }

def withSpeed (config : LinkConfig) (speed : Speed) : LinkConfig :=
  { config with line := { config.line with speed } }

/-- Refuses waits of no length. The timeout is looked at first; the check interval may be zero. -/
def validate (config : LinkConfig) : Except ConfigError Unit :=
  if config.timeout = 0 then .error .zeroTimeout
  else if config.idleTimeout = 0 then .error .zeroIdleTimeout
  else .ok ()

theorem validate_eq_ok_iff {config : LinkConfig} :
    config.validate = .ok () ↔ config.timeout ≠ 0 ∧ config.idleTimeout ≠ 0 := by
  unfold validate
  split
  · simp_all
  · split <;> simp_all

end LinkConfig
end SplitKeyboard
