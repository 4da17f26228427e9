import SplitKeyboard.LinkConfig
import SplitKeyboard.Payload.Schema
import SplitKeyboard.Role
import SplitKeyboard.SharedState

/-!
How the keyboard's own types travel: each has a schema, and a value of it is taken apart and put
together field by field.
-/
namespace SplitKeyboard

class Payload (α : Type) where
  schema : Schema
  toValue : α → schema.Value
  ofValue : schema.Value → α
  ofValue_toValue (a : α) : ofValue (toValue a) = a

instance : Payload SharedState where
  schema := .pair .byte (.pair .byte .byte)
  toValue state := (state.layer.toBitVec, state.leds.toBitVec, state.mods.toBitVec)
  ofValue := fun (layer, leds, mods) => ⟨.ofBitVec layer, .ofBitVec leds, .ofBitVec mods⟩
  ofValue_toValue _ := rfl

instance : Payload Role where
  schema := .choice 2
  toValue := Role.index
  ofValue := Role.ofIndex
  ofValue_toValue := Role.ofIndex_index

instance : Payload Line where
  schema := .pair (.choice 6) (.choice 2)
  toValue line := (line.speed.index, line.duplex.index)
  ofValue := fun (speed, duplex) => ⟨.ofIndex speed, .ofIndex duplex⟩
  ofValue_toValue line := by simp [Speed.ofIndex_index, Duplex.ofIndex_index]

/-- The line goes first, then the three times. -/
instance : Payload LinkConfig where
  schema := .pair (.pair (.choice 6) (.choice 2))
    (.pair (.unsigned .w32) (.pair (.unsigned .w32) (.unsigned .w32)))
  toValue config := ((config.line.speed.index, config.line.duplex.index),
    config.timeout.toBitVec, config.checkInterval.toBitVec, config.idleTimeout.toBitVec)
  ofValue := fun ((speed, duplex), timeout, checkInterval, idleTimeout) =>
    { line := ⟨.ofIndex speed, .ofIndex duplex⟩
      timeout := .ofBitVec timeout
      checkInterval := .ofBitVec checkInterval
      idleTimeout := .ofBitVec idleTimeout }
  ofValue_toValue config := by simp [Speed.ofIndex_index, Duplex.ofIndex_index]

end SplitKeyboard
