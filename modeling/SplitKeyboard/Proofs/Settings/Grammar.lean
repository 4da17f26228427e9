import Mathlib.Data.List.DropRight
import Mathlib.Tactic.Common
import SplitKeyboard.Proofs.Settings.Reading

/-!
The notation of settings files, told line by line and without their reader: which texts are numbers
and words, what a comment leaves of a value, which lines open a section and which assign a setting.
-/
namespace SplitKeyboard

namespace Text

section Trim

variable {cs : List Char}

/-- What is trimmed begins with no blank. -/
theorem trim_starts (cs : List Char) : ∀ c ∈ (trim cs).head?, isBlank c = false := by
  intro c first
  obtain ⟨back, split⟩ := List.rdropWhile_prefix isBlank (l := cs.dropWhile isBlank)
  have first_too : (cs.dropWhile isBlank).head? = some c := by
    rw [← split, List.head?_append]
    exact Option.or_eq_some_iff.mpr (.inl first)
  have kept := List.head?_dropWhile_not isBlank cs
  rw [first_too] at kept
  simpa using kept

theorem trim_trim (cs : List Char) : trim (trim cs) = trim cs := by
  have again : trim (trim cs) = trimEnd (trim cs) := by
    rw [trim, dropWhile_isBlank (trim_starts cs)]
  rw [again]
  exact List.rdropWhile_idempotent isBlank (cs.dropWhile isBlank)

/-- Trimming a text that begins with no blank keeps its first character. -/
theorem head?_trim (starts : ∀ c ∈ cs.head?, isBlank c = false) (holds : trim cs ≠ []) :
    cs.head? = (trim cs).head? := by
  have only_end : trim cs = trimEnd cs := by rw [trim, dropWhile_isBlank starts]
  obtain ⟨back, split⟩ := List.rdropWhile_prefix isBlank (l := cs)
  have kept : trim cs ++ back = cs := only_end ▸ split
  rw [← List.head?_append_of_ne_nil _ holds, kept]

end Trim

/-- A text between two characters. -/
theorem eq_enclosed_iff {cs inner : List Char} {first last : Char} :
    cs = first :: inner ++ [last] ↔
      (cs.head? = some first ∧ cs.getLast? = some last ∧ 2 ≤ cs.length) ∧
        cs.tail.dropLast = inner := by
  constructor
  · rintro rfl
    exact ⟨⟨rfl, List.getLast?_concat, by simp⟩, List.dropLast_concat⟩
  · rintro ⟨⟨opened, closed, long⟩, rfl⟩
    cases cs with
    | nil => cases opened
    | cons c rest =>
      cases opened
      rcases List.eq_nil_or_concat rest with rfl | ⟨inner, d, rfl⟩
      · simp at long
      · rw [List.concat_eq_append, ← List.cons_append, List.getLast?_concat] at closed
        cases closed
        simp

/-- A text is split at the first of its marks in one way only. -/
theorem takeWhile_mark {mark : Char} {before : List Char} (first : mark ∉ before)
    (after : List Char) :
    (before ++ mark :: after).takeWhile (· ≠ mark) = before ∧
      ((before ++ mark :: after).dropWhile (· ≠ mark)).drop 1 = after := by
  have ahead : ∀ c ∈ before, decide (c ≠ mark) = true := by
    intro c member
    rw [decide_eq_true_iff]
    rintro rfl
    exact first member
  constructor
  · rw [List.takeWhile_append_of_pos ahead]
    simp
  · rw [List.dropWhile_append_of_pos ahead]
    simp

theorem byteLength_of_utf8Size {cs : List Char} (single : ∀ c ∈ cs, c.utf8Size = 1) :
    byteLength cs = cs.length := by
  induction cs with
  | nil => rfl
  | cons c cs ih =>
    rw [byteLength, single c (List.mem_cons_self ..), List.length_cons,
      ih fun d member => single d (List.mem_cons_of_mem _ member), Nat.add_comm]

end Text

section Notation

/-- A number of 32 bits. Underscores may stand anywhere; without them at most 16 bytes are left,
which are decimal digits, and one plus sign may lead. -/
def Numeral (text : List Char) (n : Nat) : Prop :=
  ∃ sign digits : List Char, text.filter (· ≠ '_') = sign ++ digits ∧ (sign = [] ∨ sign = ['+']) ∧
    digits ≠ [] ∧ (∀ c ∈ digits, c.isDigit = true) ∧
    Text.byteLength (text.filter (· ≠ '_')) ≤ 16 ∧
    Nat.ofDigitChars 10 digits 0 = n ∧ n < UInt32.size

/-- A word, which may stand between double quotes. -/
def Spells (text : List Char) (word : String) : Prop :=
  text = word.toList ∨ text = '"' :: word.toList ++ ['"']

/-- The ways to write the value of a setting. -/
inductive Setting.WrittenAs : Setting → List Char → Prop
  | speed {speed : Speed} {text} (rate : Numeral text speed.baudrate) : WrittenAs (.speed speed) text
  | duplex {text} (full : Spells text "full") : WrittenAs (.duplex .full) text
  | timeout {ms : UInt32} {text} (time : Numeral text ms.toNat) : WrittenAs (.timeout ms) text
  | checkInterval {ms : UInt32} {text} (time : Numeral text ms.toNat) :
    WrittenAs (.checkInterval ms) text
  | idleTimeout {ms : UInt32} {text} (time : Numeral text ms.toNat) : WrittenAs (.idleTimeout ms) text
  | high {text} (word : Spells text "true" ∨ Spells text "high") :
    WrittenAs (.initiatorLevel true) text
  | low {text} (word : Spells text "false" ∨ Spells text "low") :
    WrittenAs (.initiatorLevel false) text

theorem Numeral.ne_nil {text : List Char} {n : Nat} (numeral : Numeral text n) : text ≠ [] := by
  rintro rfl
  obtain ⟨sign, digits, written, _, some_digit, _⟩ := numeral
  exact some_digit (List.append_eq_nil_iff.mp written.symm).2

theorem Spells.ne_nil {text : List Char} {word : String} (spells : Spells text word)
    (holds : word.toList ≠ []) : text ≠ [] := by
  rcases spells with rfl | rfl
  · exact holds
  · exact List.cons_ne_nil _ _

theorem Setting.WrittenAs.ne_nil {setting : Setting} {text : List Char}
    (written : setting.WrittenAs text) : text ≠ [] := by
  cases written with
  | speed number | timeout number | checkInterval number | idleTimeout number => exact number.ne_nil
  | duplex full => exact full.ne_nil (by decide)
  | high word | low word => exact word.elim (·.ne_nil (by decide)) (·.ne_nil (by decide))

/-- What is left of a value without its comment. The first hash begins one if the double quotes
before it are balanced; otherwise it stands in a string, and the value is kept as it is. -/
inductive Leaves : List Char → List Char → Prop
  | bare {value} (plain : '#' ∉ value) : Leaves value value
  | comment {before after} (first : '#' ∉ before) (balanced : before.count '"' % 2 = 0) :
    Leaves (before ++ '#' :: after) (Text.trim before)
  | quoted {before after} (first : '#' ∉ before) (opened : before.count '"' % 2 = 1) :
    Leaves (before ++ '#' :: after) (before ++ '#' :: after)

/-- A line that says nothing: a blank one or a comment. -/
def Idle (line : List Char) : Prop := Text.trim line = [] ∨ (Text.trim line).head? = some '#'

/-- A line between brackets. -/
def Bracketed (line inner : List Char) : Prop := Text.trim line = '[' :: inner ++ [']']

theorem bracketed_iff {line inner : List Char} : Bracketed line inner ↔
    ((Text.trim line).head? = some '[' ∧ (Text.trim line).getLast? = some ']') ∧
      (Text.trim line).tail.dropLast = inner := by
  refine Text.eq_enclosed_iff.trans (and_congr_left fun _ => ?_)
  constructor
  · exact fun marks => ⟨marks.1, marks.2.1⟩
  · intro marks
    refine ⟨marks.1, marks.2, ?_⟩
    -- One character cannot be both brackets.
    match Text.trim line, marks with
    | [_], ⟨opened, closed⟩ =>
      cases opened
      cases closed
    | _ :: _ :: _, _ => exact Nat.le_add_left 2 _

/-- A line `[name]` with the name of a section. -/
def Heading.OpenedBy (heading : Heading) (line : List Char) : Prop :=
  ∃ inner, Bracketed line inner ∧ Text.trim inner = heading.name.toList

/-- A line `key = rest`, taken apart at its first equals sign. -/
def KeyValue (line key rest : List Char) : Prop :=
  ∃ before, Text.trim line = before ++ '=' :: rest ∧ '=' ∉ before ∧ Text.trim before = key

/-- In this section, the line assigns the setting. -/
structure Assigns (heading : Heading) (line : List Char) (setting : Setting) : Prop where
  known : setting.key.heading = heading
  written : ∃ rest value, KeyValue line setting.key.name.toList rest ∧
    Leaves (Text.trim rest) value ∧ setting.WrittenAs value

instance (heading : Heading) (line : List Char) : Decidable (heading.OpenedBy line) :=
  decidable_of_iff (((Text.trim line).head? = some '[' ∧ (Text.trim line).getLast? = some ']') ∧
      Text.trim (Text.trim line).tail.dropLast = heading.name.toList) <| by
    simp only [Heading.OpenedBy, bracketed_iff, and_assoc, exists_and_left, exists_eq_left']

/-- The section that a line opens, if it opens one. -/
def Heading.openedBy? (line : List Char) : Option Heading :=
  [link, role].find? fun heading => heading.OpenedBy line

/-- A line and the section that it stands in. Before the first header there is none. -/
abbrev PlacedLine := Option Heading × List Char

/-- The lines that open no section, each in the section that was opened last. -/
def placed : Option Heading → List (List Char) → List PlacedLine
  | _, [] => []
  | current, line :: rest =>
    match Heading.openedBy? line with
    | some heading => placed (some heading) rest
    | none => (current, line) :: placed current rest

/-- Each line is idle or assigns a setting, and these are the settings, in their order. -/
inductive Says : List PlacedLine → List Setting → Prop
  | nothing : Says [] []
  | idle {current line rest list} (idle : Idle line) (more : Says rest list) :
    Says ((current, line) :: rest) list
  | assigns {heading line rest setting list} (assigns : Assigns heading line setting)
    (more : Says rest list) : Says ((some heading, line) :: rest) (setting :: list)

end Notation
end SplitKeyboard
