/-!
Which part a half plays, read once from a strap pin.
-/
namespace SplitKeyboard

inductive Role where
  | initiator
  | target
  deriving DecidableEq

namespace Role

def name : Role → String
  | initiator => "Initiator"
  | target => "Target"

def isInitiator (role : Role) : Bool := role == initiator

/-- The half is the initiator when the pin has the chosen level. A pin that cannot be read makes a
target, so that a faulty half never starts to talk. -/
def ofPin (pin : Option Bool) (initiatorLevel : Bool) : Role :=
  if pin = some initiatorLevel then initiator else target

def index : Role → Fin 2
  | initiator => ⟨0, Nat.zero_lt_two⟩
  | target => ⟨1, Nat.one_lt_two⟩

def ofIndex : Fin 2 → Role
  | 0 => initiator
  | 1 => target

theorem ofIndex_index (role : Role) : ofIndex role.index = role := by cases role <;> rfl

end Role
end SplitKeyboard
