import Mathlib.Algebra.Ring.Parity
import Mathlib.Data.List.FinRange
import SplitKeyboard.Firmware.Halves
import SplitKeyboard.Proofs.TypingSpeed

/-!
What is published of the keys, told by the scans alone. A press is a key that is down in a scan and
was not down in the one before, so a key that is held is one press, and keys that go down in one
scan are one each. The layer and the modifiers are those of the last scan, the presses of the caps
key decide on caps lock, and every press counts for the typing speed at the time of its scan.
-/
namespace SplitKeyboard

/-- One scan: when it is made, and which keys are down in it. -/
structure KeySample where
  now : Millis
  down : Fin keyCount → Bool

structure KeyPress where
  key : Fin keyCount
  now : Millis

/-- The presses that a scan sees, in the order of the keys, given which keys were down before. -/
def KeySample.presses (before : Fin keyCount → Bool) (sample : KeySample) : List KeyPress :=
  ((List.finRange keyCount).filter fun key => !before key && sample.down key).map
    fun key => ⟨key, sample.now⟩

/-- The keys that are down after some scans. Before the first one they all count as up. -/
def heldAfter (before : Fin keyCount → Bool) (samples : List KeySample) : Fin keyCount → Bool :=
  (samples.getLast?.map KeySample.down).getD before

def pressesFrom (before : Fin keyCount → Bool) : List KeySample → List KeyPress
  | [] => []
  | sample :: samples => sample.presses before ++ pressesFrom sample.down samples

def heldKeys (samples : List KeySample) : Fin keyCount → Bool := heldAfter (fun _ => false) samples

/-- All presses of some scans, in their order. -/
def keyPresses (samples : List KeySample) : List KeyPress := pressesFrom (fun _ => false) samples

theorem pressesFrom_concat (before : Fin keyCount → Bool) (samples : List KeySample)
    (sample : KeySample) :
    pressesFrom before (samples ++ [sample]) =
      pressesFrom before samples ++ sample.presses (heldAfter before samples) := by
  induction samples generalizing before with
  | nil => exact List.append_nil _
  | cons first samples ih =>
    have held : heldAfter before (first :: samples) = heldAfter first.down samples := by
      rw [heldAfter, heldAfter, List.getLast?_cons]
      cases samples.getLast? <;> rfl
    rw [List.cons_append, pressesFrom, pressesFrom, ih, held, List.append_assoc]

theorem heldKeys_concat (samples : List KeySample) (sample : KeySample) :
    heldKeys (samples ++ [sample]) = sample.down := by
  rw [heldKeys, heldAfter, List.getLast?_concat]
  rfl

/-- The keys that both halves show something of. -/
def layerPin : Fin keyCount := ⟨layerKey, by decide⟩

def shiftPin : Fin keyCount := ⟨shiftKey, by decide⟩

def capsPin : Fin keyCount := ⟨capsKey, by decide⟩

namespace KeyScan

def levels (scan : KeyScan) (key : Fin keyCount) : Bool := scan.down.getD key false

/-- The lights after some presses: each press of the caps key flips one. -/
def flipped (presses : List KeyPress) (leds : UInt8) : UInt8 :=
  presses.foldl (fun leds press =>
    if press.key = capsPin then leds ^^^ SharedState.capsLock else leds) leds

/-- What some presses bring about between two states of a scan. -/
structure Brings (presses : List KeyPress) (before after : KeyScan) : Prop where
  speed : after.speed =
    TypingSpeed.play (presses.map fun press => .press press.now) before.speed
  shared : after.shared = { before.shared with leds := flipped presses before.shared.leds }

variable {before middle after scan : KeyScan} {presses more : List KeyPress}
  {samples : List KeySample}

theorem brings_nothing (scan : KeyScan) : Brings [] scan scan := ⟨rfl, rfl⟩

theorem Brings.append (first : Brings presses before middle) (rest : Brings more middle after) :
    Brings (presses ++ more) before after := by
  constructor
  · rw [rest.speed, first.speed, List.map_append, TypingSpeed.play_append]
  · rw [rest.shared, first.shared, flipped, flipped, flipped, List.foldl_append]

section Observe

variable (full : scan.down.length = keyCount) (now : Millis) (key : Fin keyCount) (level : Bool)

include full in
theorem length_observe : (scan.observe now key level).down.length = keyCount := by
  unfold observe
  split
  · exact full
  · cases level <;> exact (List.length_set ..).trans full

include full in
theorem levels_observe :
    (scan.observe now key level).levels = Function.update scan.levels key level := by
  have within : key.val < scan.down.length := by
    rw [full]
    exact key.isLt
  funext other
  by_cases own : other = key
  · subst own
    rw [Function.update_self]
    unfold observe
    split
    · next same => exact same
    · cases level <;> simp [levels, within]
  · have apart : key.val ≠ other.val := fun same => own (Fin.ext same.symm)
    rw [Function.update_of_ne own]
    unfold observe
    split
    · rfl
    · cases level <;> simp [levels, apart]

/-- Only a change of level changes anything, and only going down is a press. -/
theorem observe_brings :
    Brings (if !scan.levels key && level then [⟨key, now⟩] else []) scan
      (scan.observe now key level) := by
  by_cases same : scan.levels key = level
  · have unchanged : scan.observe now key level = scan := if_pos same
    have idle : (!scan.levels key && level) = false := by
      rw [same]
      exact Bool.not_and_self level
    rw [unchanged, idle]
    exact brings_nothing scan
  · cases level with
    | false =>
      have released : scan.observe now key false =
          { scan with down := scan.down.set key false } := if_neg same
      rw [Bool.and_false, released]
      exact ⟨rfl, rfl⟩
    | true =>
      have pressed : scan.observe now key true =
          { scan with
            down := scan.down.set key true
            speed := scan.speed.press now
            shared := if key.val = capsKey then
                { scan.shared with leds := scan.shared.leds ^^^ SharedState.capsLock }
              else scan.shared } := if_neg same
      have fresh : scan.levels key = false := Bool.eq_false_of_not_eq_true same
      rw [fresh, pressed]
      refine ⟨rfl, ?_⟩
      have pin : key.val = capsKey ↔ key = capsPin := (Fin.ext_iff (b := capsPin)).symm
      simp only [flipped, pin]
      by_cases caps : key = capsPin
      · simp [caps]
      · simp [caps]

end Observe

/-- Keys that are looked at one after the other, each once: the presses are those of the keys that
were up before the first look. -/
theorem foldl_observe (down : Fin keyCount → Bool) (now : Millis) {keys : List (Fin keyCount)}
    (once : keys.Nodup) (full : scan.down.length = keyCount) :
    let after := keys.foldl (fun scan key => scan.observe now key (down key)) scan
    after.down.length = keyCount ∧
      (∀ key, after.levels key = if key ∈ keys then down key else scan.levels key) ∧
      Brings ((keys.filter fun key => !scan.levels key && down key).map
        fun key => KeyPress.mk key now) scan after := by
  induction keys generalizing scan with
  | nil => exact ⟨full, fun key => rfl, brings_nothing scan⟩
  | cons key keys ih =>
    obtain ⟨absent, once⟩ := List.nodup_cons.mp once
    have levels := levels_observe full now key (down key)
    obtain ⟨length, rest_levels, rest⟩ := ih once (length_observe full now key (down key))
    refine ⟨length, fun other => ?_, ?_⟩
    · rw [List.foldl_cons, rest_levels, levels]
      by_cases own : other = key
      · subst own
        simp [absent]
      · simp [own]
    · have unseen : (keys.filter fun other =>
          !(scan.observe now key (down key)).levels other && down other) =
          keys.filter fun other => !scan.levels other && down other := by
        refine List.filter_congr fun other member => ?_
        have apart : other ≠ key := fun same => absent (same ▸ member)
        rw [levels, Function.update_of_ne apart]
      rw [unseen] at rest
      have both := (observe_brings now key (down key)).append rest
      rw [List.filter_cons]
      cases fresh : !scan.levels key && down key <;> simpa [fresh] using both

theorem observeFrom_eq_foldl (now : Millis) (start : Nat) (levels : List Bool) (scan : KeyScan) :
    observeFrom now start levels scan =
      (levels.zipIdx start).foldl (fun scan look => scan.observe now look.2 look.1) scan := by
  induction levels generalizing start scan with
  | nil => rfl
  | cons level levels ih => exact ih (start + 1) (scan.observe now start level)

theorem observeFrom_ofFn (now : Millis) (down : Fin keyCount → Bool) (scan : KeyScan) :
    observeFrom now 0 (List.ofFn down) scan =
      (List.finRange keyCount).foldl (fun scan key => scan.observe now key (down key)) scan := by
  have looks : (List.ofFn down).zipIdx =
      (List.finRange keyCount).map fun key => (down key, key.val) := by
    apply List.ext_getElem
    · simp
    · intro i _ _
      simp
  rw [observeFrom_eq_foldl, looks, List.foldl_map]

/-- A scan sees its presses, takes over the levels, and then sets the layer and the modifiers. -/
theorem scan_brings (full : scan.down.length = keyCount) (sample : KeySample) :
    let after := scan.scan sample.now (List.ofFn sample.down)
    after.down.length = keyCount ∧ after.levels = sample.down ∧
      after.speed = TypingSpeed.play
        ((sample.presses scan.levels).map fun press => .press press.now) scan.speed ∧
      after.shared.leds = flipped (sample.presses scan.levels) scan.shared.leds ∧
      after.shared.layer = (if after.levels layerPin then 1 else 0) ∧
      after.shared.mods = if after.levels shiftPin then SharedState.leftShift else 0 := by
  have all : (List.ofFn sample.down).take keyCount = List.ofFn sample.down :=
    List.take_of_length_le (Nat.le_of_eq List.length_ofFn)
  have observed := foldl_observe sample.down sample.now (List.nodup_finRange keyCount) full
  rw [← observeFrom_ofFn] at observed
  rw [KeyScan.scan, all]
  generalize observeFrom sample.now 0 (List.ofFn sample.down) scan = seen at observed ⊢
  obtain ⟨length, levels, brings⟩ := observed
  refine ⟨length, ?_, brings.speed, congrArg SharedState.leds brings.shared, rfl, rfl⟩
  funext key
  exact (levels key).trans (if_pos (List.mem_finRange key))

/-- What a scan holds after some samples, told by the samples alone. -/
structure Holds (samples : List KeySample) (scan : KeyScan) : Prop where
  full : scan.down.length = keyCount
  levels : scan.levels = heldKeys samples
  speed : scan.speed =
    TypingSpeed.play ((keyPresses samples).map fun press => .press press.now) {}
  leds : scan.shared.leds = flipped (keyPresses samples) 0
  layer : scan.shared.layer = if heldKeys samples layerPin then 1 else 0
  mods : scan.shared.mods = if heldKeys samples shiftPin then SharedState.leftShift else 0

theorem holds_new : Holds [] {} := by
  constructor
  case levels =>
    funext key
    revert key
    decide
  all_goals rfl

theorem Holds.next (holds : Holds samples scan) (sample : KeySample) :
    Holds (samples ++ [sample]) (scan.scan sample.now (List.ofFn sample.down)) := by
  obtain ⟨full, levels, speed, leds, layer, mods⟩ := scan_brings holds.full sample
  rw [holds.levels] at speed leds
  have presses : keyPresses (samples ++ [sample]) =
    keyPresses samples ++ sample.presses (heldKeys samples) := pressesFrom_concat ..
  rw [levels] at layer mods
  constructor
  case full => exact full
  case levels => rw [levels, heldKeys_concat]
  case speed => rw [speed, holds.speed, presses, List.map_append, TypingSpeed.play_append]
  case leds => rw [leds, holds.leds, presses, flipped, flipped, flipped, List.foldl_append]
  case layer => rw [layer, heldKeys_concat]
  case mods => rw [mods, heldKeys_concat]

theorem Holds.again (holds : Holds samples scan) (sample : KeySample) (times : Nat) :
    Holds (samples ++ List.replicate times sample)
      (times.repeat (fun scan => scan.scan sample.now (List.ofFn sample.down)) scan) := by
  induction times with
  | zero =>
    rw [List.replicate_zero, List.append_nil]
    exact holds
  | succ times ih =>
    rw [List.replicate_succ', ← List.append_assoc]
    exact ih.next sample

theorem flipped_eq (presses : List KeyPress) (leds : UInt8) :
    flipped presses leds = if Odd (presses.countP fun press => press.key = capsPin) then
      leds ^^^ SharedState.capsLock else leds := by
  induction presses generalizing leds with
  | nil => exact (if_neg Nat.not_odd_zero).symm
  | cons press presses ih =>
    have step : flipped (press :: presses) leds = flipped presses
        (if press.key = capsPin then leds ^^^ SharedState.capsLock else leds) := rfl
    rw [step, ih, List.countP_cons]
    by_cases caps : press.key = capsPin
    · have twice : leds ^^^ SharedState.capsLock ^^^ SharedState.capsLock = leds := by
        rw [UInt8.xor_assoc, UInt8.xor_self, UInt8.xor_zero]
      simp only [caps, decide_true, if_true, Nat.odd_add_one, twice, ite_not]
    · simp only [caps, decide_false, if_false, Bool.false_eq_true, Nat.add_zero]

end KeyScan

namespace TypingSpeed

/-- The best estimate fits into the byte that is published of it. -/
theorem best_play_le_255 (calls : List (SpeedCall Millis)) {speed : TypingSpeed}
    (small : speed.best ≤ 255) : (play calls speed).best ≤ 255 := by
  induction calls generalizing speed with
  | nil => exact small
  | cons call calls ih =>
    refine ih ?_
    cases call with
    | press now =>
      rw [act, best_press]
      exact Nat.max_le.mpr ⟨small, Nat.min_le_left _ _⟩
    | look now =>
      have kept : (speed.measure now).2.best = speed.best := best_advance speed now
      rw [act, kept]
      exact small

end TypingSpeed

namespace Firmware

open KeyScan (Holds flipped_eq)

/-- What has to be published after some scans. -/
structure Published.Tells (published : Published) (samples : List KeySample) : Prop where
  layer : published.state.layer = if heldKeys samples layerPin then 1 else 0
  mods : published.state.mods = if heldKeys samples shiftPin then SharedState.leftShift else 0
  leds : published.state.leds =
    if Odd ((keyPresses samples).countP fun press => press.key = capsPin) then
      SharedState.capsLock else 0
  best : published.bestSpeed.toNat =
    (TypingSpeed.play ((keyPresses samples).map fun press => .press press.now) {}).best

/-- A turn of the key task: the uptime, the tick that it waits for, and the keys that are down. -/
structure KeyTurn where
  uptime : Nat
  tick : Nat
  down : Fin keyCount → Bool

/-- The scans of a turn: one for the tick, if it has come, and one for each that came after it. -/
def KeyTurn.samples (turn : KeyTurn) : List KeySample :=
  List.replicate
    (if turn.uptime < turn.tick then 0 else (turn.uptime - turn.tick) / scanPeriod + 1)
    ⟨UInt32.ofNat turn.uptime, turn.down⟩

def Halves.takeKeyTurn (halves : Halves) (turn : KeyTurn) : Halves :=
  { halves with
    uptime := turn.uptime
    nextScan := turn.tick
    keys := List.ofFn turn.down }.pollScan

variable {samples : List KeySample} {halves : Halves}

/-- The key task has made these scans, and has published what came of them. -/
structure Halves.Scanned (halves : Halves) (samples : List KeySample) : Prop where
  holds : Holds samples halves.scan
  state : halves.published.state = halves.scan.shared
  bestSpeed : halves.published.bestSpeed = UInt8.ofNat halves.scan.speed.best

theorem Halves.scanned_start (config : LinkConfig) (uptime : Nat) (plugged : Bool) :
    (start config uptime plugged).Scanned [] := ⟨KeyScan.holds_new, rfl, rfl⟩

theorem Halves.Scanned.turn (scanned : halves.Scanned samples) (turn : KeyTurn) :
    (halves.takeKeyTurn turn).Scanned (samples ++ turn.samples) := by
  unfold takeKeyTurn pollScan KeyTurn.samples
  dsimp only
  split
  · rw [List.replicate_zero, List.append_nil]
    exact ⟨scanned.holds, scanned.state, scanned.bestSpeed⟩
  · generalize (turn.uptime - turn.tick) / scanPeriod + 1 = due
    exact ⟨scanned.holds.again ⟨UInt32.ofNat turn.uptime, turn.down⟩ due, rfl, rfl⟩

theorem Halves.Scanned.turns (scanned : halves.Scanned samples) (turns : List KeyTurn) :
    (turns.foldl takeKeyTurn halves).Scanned (samples ++ turns.flatMap KeyTurn.samples) := by
  induction turns generalizing halves samples with
  | nil =>
    rw [List.flatMap_nil, List.append_nil]
    exact scanned
  | cons turn turns ih =>
    rw [List.flatMap_cons, ← List.append_assoc]
    exact ih (scanned.turn turn)

theorem Halves.Scanned.tells (scanned : halves.Scanned samples) :
    halves.published.Tells samples := by
  obtain ⟨holds, state, bestSpeed⟩ := scanned
  constructor
  case layer => rw [state, holds.layer]
  case mods => rw [state, holds.mods]
  case leds => rw [state, holds.leds, flipped_eq, UInt8.zero_xor]
  case best =>
    have fresh : ({} : TypingSpeed).best ≤ 255 := Nat.zero_le _
    have small := TypingSpeed.best_play_le_255
      ((keyPresses samples).map fun press => .press press.now) fresh
    rw [bestSpeed, holds.speed, UInt8.toNat_ofNat']
    exact Nat.mod_eq_of_lt (Nat.lt_succ_of_le small)

/-- Whenever the key task has its turns, it publishes the layer and the modifiers of the last scan,
caps lock after an odd number of presses of its key, and the best typing speed of all presses, each
counted once. Any scans at all can be those of some turns. -/
theorem keys_published (config : LinkConfig) (uptime : Nat) (plugged : Bool) :
    (∀ turns : List KeyTurn,
      (turns.foldl Halves.takeKeyTurn (.start config uptime plugged)).published.Tells
        (turns.flatMap KeyTurn.samples)) ∧
      ∀ samples : List KeySample, ∃ turns : List KeyTurn,
        turns.flatMap KeyTurn.samples = samples := by
  constructor
  · intro turns
    exact ((Halves.scanned_start config uptime plugged).turns turns).tells
  · intro samples
    refine ⟨samples.map fun sample => ⟨sample.now.toNat, sample.now.toNat, sample.down⟩, ?_⟩
    induction samples with
    | nil => rfl
    | cons sample samples ih =>
      rw [List.map_cons, List.flatMap_cons, ih]
      simp [KeyTurn.samples]

end Firmware
end SplitKeyboard
