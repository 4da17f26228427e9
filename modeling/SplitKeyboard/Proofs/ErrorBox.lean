import Mathlib.Data.List.Forall2
import SplitKeyboard.ErrorBox
import SplitKeyboard.Proofs.Settings.Reading

/-!
Messages drawn in a box. A message can be drawn just if none of its long lines would have to be cut
inside a character. Then each line has one box line, all of the same width, which shows the line or
its beginning. The width is in characters and the limit in bytes, so the two counts are kept apart.
-/
namespace SplitKeyboard

namespace Text

section Bytes

variable {n : Nat} {cs kept : List Char}

theorem byteLength_append (front back : List Char) :
    byteLength (front ++ back) = byteLength front + byteLength back := by
  induction front with
  | nil => exact (Nat.zero_add _).symm
  | cons c front ih => rw [List.cons_append, byteLength, byteLength, ih, Nat.add_assoc]

theorem length_le_byteLength (cs : List Char) : cs.length ≤ byteLength cs := by
  induction cs with
  | nil => exact Nat.le_refl 0
  | cons c cs ih =>
    have some_byte := c.utf8Size_pos
    rw [List.length_cons, byteLength]
    omega

theorem byteLength_eq_zero_iff : byteLength cs = 0 ↔ cs = [] := by
  constructor
  · intro none_there
    have length := length_le_byteLength cs
    exact List.length_eq_zero_iff.mp (by omega)
  · rintro rfl
    rfl

/-- The front that is taken is the one of as many bytes. -/
theorem takeBytes?_eq_some_iff :
    takeBytes? n cs = some kept ↔ byteLength kept = n ∧ kept <+: cs := by
  induction n, cs using takeBytes?.induct generalizing kept with
  | case1 cs =>
    rw [takeBytes?, byteLength_eq_zero_iff, Option.some.injEq]
    constructor
    · rintro rfl
      exact ⟨rfl, List.nil_prefix⟩
    · exact fun both => both.1.symm
  | case2 n =>
    rw [takeBytes?, List.prefix_nil]
    constructor
    · exact fun taken => absurd taken (Option.some_ne_none kept).symm
    · rintro ⟨length, rfl⟩
      cases length
  | case3 n c rest fits ih =>
    rw [takeBytes?, if_pos fits, Option.map_eq_some_iff]
    constructor
    · rintro ⟨front, taken, rfl⟩
      obtain ⟨length, front⟩ := ih.mp taken
      refine ⟨?_, (List.prefix_cons_inj c).mpr front⟩
      rw [byteLength, length]
      omega
    · rintro ⟨length, front⟩
      cases kept with
      | nil => cases length
      | cons d kept =>
        obtain ⟨rfl, behind⟩ := List.cons_prefix_cons.mp front
        rw [byteLength] at length
        exact ⟨kept, ih.mpr ⟨by omega, behind⟩, rfl⟩
  | case4 n c rest wide =>
    rw [takeBytes?, if_neg wide]
    constructor
    · exact fun taken => absurd taken (Option.some_ne_none kept).symm
    · rintro ⟨length, front⟩
      cases kept with
      | nil => cases length
      | cons d kept =>
        obtain ⟨rfl, front⟩ := List.cons_prefix_cons.mp front
        rw [byteLength] at length
        omega

/-- A place in a text, counted in bytes, that lies between the bytes of one character. -/
def InsideChar (place : Nat) (cs : List Char) : Prop :=
  ∃ front c rest, cs = front ++ c :: rest ∧ byteLength front < place ∧
    place < byteLength front + c.utf8Size

/-- Nothing is taken just if the cut would fall inside a character. -/
theorem takeBytes?_eq_none_iff (within : n ≤ byteLength cs) :
    takeBytes? n cs = none ↔ InsideChar n cs := by
  constructor
  · intro refused
    induction n, cs using takeBytes?.induct with
    | case1 cs =>
      rw [takeBytes?] at refused
      cases refused
    | case2 n =>
      rw [byteLength] at within
      omega
    | case3 n c rest fits ih =>
      rw [takeBytes?, if_pos fits, Option.map_eq_none_iff] at refused
      rw [byteLength] at within
      obtain ⟨front, d, back, rfl, before, behind⟩ := ih (by omega) refused
      refine ⟨c :: front, d, back, rfl, ?_, ?_⟩
      · rw [byteLength]
        omega
      · rw [byteLength]
        omega
    | case4 n c rest wide => exact ⟨[], c, rest, rfl, Nat.succ_pos n, by rw [byteLength]; omega⟩
  · rintro ⟨front, c, rest, rfl, before, behind⟩
    refine Option.eq_none_iff_forall_ne_some.mpr fun kept taken => ?_
    obtain ⟨length, fits⟩ := takeBytes?_eq_some_iff.mp taken
    -- What is taken ends before the character or behind it, so it has too few or too many bytes.
    rcases List.prefix_or_prefix_of_prefix fits (List.prefix_append front (c :: rest)) with
      short | ⟨others, rfl⟩
    · obtain ⟨others, rfl⟩ := short
      rw [byteLength_append] at before
      omega
    · cases others with
      | nil =>
        rw [List.append_nil] at length
        omega
      | cons d others =>
        obtain ⟨rfl, -⟩ := List.cons_prefix_cons.mp ((List.prefix_append_right_inj front).mp fits)
        rw [byteLength_append, byteLength] at length
        omega

end Bytes

section Lines

variable {line text : List Char}

theorem not_mem_linesFrom {current : List Char} (oneLine : '\n' ∉ current)
    (member : line ∈ linesFrom current text) : '\n' ∉ line := by
  induction text generalizing current with
  | nil =>
    rw [linesFrom] at member
    split at member
    · cases member
    · rw [List.mem_singleton.mp member, List.mem_reverse]
      exact oneLine
  | cons c text ih =>
    rw [linesFrom] at member
    split at member
    · rcases List.mem_cons.mp member with rfl | later
      · have whole : '\n' ∉ current.reverse := mt List.mem_reverse.mp oneLine
        unfold dropReturn
        split
        · exact fun there => whole (List.dropLast_subset _ there)
        · exact whole
      · exact ih List.not_mem_nil later
    · next other =>
      refine ih ?_ member
      rw [List.mem_cons, not_or]
      exact ⟨Ne.symm other, oneLine⟩

theorem not_mem_of_mem_lines (member : line ∈ lines text) : '\n' ∉ line :=
  not_mem_linesFrom List.not_mem_nil member

theorem laidOut_unlines {lines : List (List Char)} (holds : ∀ line ∈ lines, line ≠ []) :
    LaidOut lines (unlines lines) := by
  induction lines with
  | nil => exact .nothing
  | cons line lines ih =>
    cases lines with
    | nil => exact .unended (holds line List.mem_cons_self)
    | cons next lines => exact .feed (ih fun other member => holds other (.tail line member))

end Lines

end Text

namespace ErrorBox

open Text (byteLength InsideChar)

/-- What is shown of a line: all of it, or of a long one its beginning and three dots. -/
inductive Shows (line : List Char) : List Char → Prop where
  | whole (short : byteLength line ≤ lineLimit) : Shows line line
  | cut {kept : List Char} (long : lineLimit < byteLength line) (front : kept <+: line)
    (full : byteLength kept = lineLimit - 3) : Shows line (kept ++ ['.', '.', '.'])

/-- A box line: within the frame and its padding, what is shown of a line, filled up with spaces to
64 characters. -/
def Boxes (line box : List Char) : Prop :=
  ∃ shown fill, Shows line shown ∧ (∀ c ∈ fill, c = ' ') ∧ (shown ++ fill).length = 64 ∧
    box = ['║', ' ', ' '] ++ (shown ++ fill) ++ [' ', '║']

/-- A long line that would have to be cut inside a character. -/
def Uncuttable (line : List Char) : Prop :=
  lineLimit < byteLength line ∧ InsideChar (lineLimit - 3) line

/-- A line as a box line, if it can be cut where it is too long. -/
def boxLine? (line : List Char) : Option (List Char) := (shorten line).map (boxed "║  " lineLimit)

variable {line box shown : List Char}

theorem shorten_eq_some_iff : shorten line = some shown ↔ Shows line shown := by
  unfold shorten
  split
  · next long =>
    rw [Option.map_eq_some_iff]
    constructor
    · rintro ⟨kept, taken, rfl⟩
      obtain ⟨full, front⟩ := Text.takeBytes?_eq_some_iff.mp taken
      exact .cut long front full
    · intro shows
      cases shows with
      | whole short => exact absurd long (Nat.not_lt_of_le short)
      | cut _ front full => exact ⟨_, Text.takeBytes?_eq_some_iff.mpr ⟨full, front⟩, rfl⟩
  · next short =>
    rw [Option.some.injEq]
    constructor
    · rintro rfl
      exact .whole (Nat.le_of_not_lt short)
    · intro shows
      cases shows with
      | whole _ => rfl
      | cut long _ _ => exact absurd long short

theorem shorten_eq_none_iff : shorten line = none ↔ Uncuttable line := by
  unfold shorten Uncuttable
  split
  · next long =>
    have within : lineLimit - 3 ≤ byteLength line := by omega
    rw [Option.map_eq_none_iff, Text.takeBytes?_eq_none_iff within]
    exact (and_iff_right long).symm
  · next short => exact iff_of_false (Option.some_ne_none line) fun long => short long.1

/-- A character takes at least one byte, so what is shown never exceeds the width. -/
theorem Shows.length_le (shows : Shows line shown) : shown.length ≤ lineLimit := by
  cases shows with
  | whole short => exact Nat.le_trans (Text.length_le_byteLength line) short
  | @cut kept _ _ full =>
    have chars := Text.length_le_byteLength kept
    have limit : lineLimit = 64 := rfl
    rw [List.length_append]
    simp only [List.length_cons, List.length_nil]
    omega

theorem boxed_eq_iff (fits : shown.length ≤ lineLimit) :
    boxed "║  " lineLimit shown = box ↔ ∃ fill : List Char, (∀ c ∈ fill, c = ' ') ∧
      (shown ++ fill).length = 64 ∧ box = ['║', ' ', ' '] ++ (shown ++ fill) ++ [' ', '║'] := by
  have limit : lineLimit = 64 := rfl
  constructor
  · rintro rfl
    refine ⟨List.replicate (lineLimit - shown.length) ' ', ?_, ?_, rfl⟩
    · exact fun c member => List.eq_of_mem_replicate member
    · rw [List.length_append, List.length_replicate]
      omega
  · rintro ⟨fill, spaces, width, rfl⟩
    have all : fill = List.replicate (lineLimit - shown.length) ' ' := by
      rw [List.eq_replicate_iff]
      rw [List.length_append] at width
      exact ⟨by omega, spaces⟩
    rw [all]
    rfl

theorem boxLine?_eq_some_iff : boxLine? line = some box ↔ Boxes line box := by
  rw [boxLine?, Option.map_eq_some_iff]
  constructor
  · rintro ⟨shown, short, drawn⟩
    have shows := shorten_eq_some_iff.mp short
    obtain ⟨fill, rest⟩ := (boxed_eq_iff shows.length_le).mp drawn
    exact ⟨shown, fill, shows, rest⟩
  · rintro ⟨shown, fill, shows, rest⟩
    exact ⟨shown, shorten_eq_some_iff.mpr shows, (boxed_eq_iff shows.length_le).mpr ⟨fill, rest⟩⟩

theorem boxLine?_eq_none_iff : boxLine? line = none ↔ Uncuttable line := by
  rw [boxLine?, Option.map_eq_none_iff, shorten_eq_none_iff]

section Messages

variable {lines boxes : List (List Char)} {message text : List Char}

theorem mapM_boxLine?_eq_some_iff :
    lines.mapM boxLine? = some boxes ↔ List.Forall₂ Boxes lines boxes := by
  induction lines generalizing boxes with
  | nil =>
    rw [List.mapM_nil, List.forall₂_nil_left_iff]
    exact Option.some_inj.trans eq_comm
  | cons line lines ih =>
    rw [List.mapM_cons, List.forall₂_cons_left_iff]
    constructor
    · intro drawn
      obtain ⟨box, first, rest⟩ := Option.bind_eq_some_iff.mp drawn
      obtain ⟨others, rest, whole⟩ := Option.bind_eq_some_iff.mp rest
      exact ⟨box, others, boxLine?_eq_some_iff.mp first, ih.mp rest, (Option.some.inj whole).symm⟩
    · rintro ⟨box, others, first, rest, rfl⟩
      rw [boxLine?_eq_some_iff.mpr first, ih.mpr rest]
      rfl

theorem mapM_boxLine?_eq_none_iff :
    lines.mapM boxLine? = none ↔ ∃ line ∈ lines, Uncuttable line := by
  induction lines with
  | nil => simp
  | cons line lines ih =>
    rw [List.mapM_cons, List.exists_mem_cons_iff, ← boxLine?_eq_none_iff, ← ih]
    cases boxLine? line with
    | none => exact iff_of_true rfl (.inl rfl)
    | some box => cases lines.mapM boxLine? <;> simp

theorem messageLines?_eq (message : List Char) :
    messageLines? message = ((Text.lines message).mapM boxLine?).map Text.unlines := rfl

/-- A box line is never empty, is one line and ends with the frame. -/
theorem Boxes.plain (boxes : Boxes line box) (oneLine : '\n' ∉ line) :
    box ≠ [] ∧ '\n' ∉ box ∧ box.getLast? ≠ some '\r' := by
  obtain ⟨shown, fill, shows, spaces, _, rfl⟩ := boxes
  have shown_one : '\n' ∉ shown := by
    cases shows with
    | whole _ => exact oneLine
    | cut _ front _ =>
      rw [List.mem_append, not_or]
      exact ⟨fun there => oneLine (front.mem there), by decide⟩
  have fill_one : '\n' ∉ fill := fun there => absurd (spaces _ there) (by decide)
  refine ⟨List.cons_ne_nil _ _, ?_, ?_⟩
  · simp [shown_one, fill_one]
  · rw [List.getLast?_append_of_ne_nil _ (by simp)]
    decide

theorem plain_of_drawn (drawn : List.Forall₂ Boxes lines boxes)
    (oneLine : ∀ line ∈ lines, '\n' ∉ line) :
    ∀ box ∈ boxes, box ≠ [] ∧ '\n' ∉ box ∧ box.getLast? ≠ some '\r' := by
  induction drawn with
  | nil => exact List.forall_mem_nil _
  | cons first rest ih =>
    obtain ⟨own, others⟩ := List.forall_mem_cons.mp oneLine
    exact List.forall_mem_cons.mpr ⟨first.plain own, ih others⟩

/-- Box lines put one below the other are the lines of the text that they make. -/
theorem lines_unlines (drawn : List.Forall₂ Boxes (Text.lines message) boxes) :
    Text.lines (Text.unlines boxes) = boxes := by
  have plain := plain_of_drawn drawn fun line member => Text.not_mem_of_mem_lines member
  exact Text.lines_of_laidOut (Text.laidOut_unlines fun box member => (plain box member).1)
    fun box member => (plain box member).2

/-- Drawing a message fails just if one of its lines would have to be cut inside a character.
Otherwise there is one box line for each line of the message, and nothing else. -/
theorem messageLines?_boxes (message : List Char) :
    (messageLines? message = none ↔ ∃ line ∈ Text.lines message, Uncuttable line) ∧
      ∀ text, messageLines? message = some text ↔ text = Text.unlines (Text.lines text) ∧
        List.Forall₂ Boxes (Text.lines message) (Text.lines text) := by
  rw [messageLines?_eq]
  refine ⟨?_, fun text => ?_⟩
  · rw [Option.map_eq_none_iff]
    exact mapM_boxLine?_eq_none_iff
  · rw [Option.map_eq_some_iff]
    constructor
    · rintro ⟨boxes, drawn, rfl⟩
      have drawn := mapM_boxLine?_eq_some_iff.mp drawn
      rw [lines_unlines drawn]
      exact ⟨rfl, drawn⟩
    · rintro ⟨whole, drawn⟩
      exact ⟨Text.lines text, mapM_boxLine?_eq_some_iff.mpr drawn, whole.symm⟩

/-- A letter of two bytes begins at the last byte that there is room for, so that its line cannot be
cut and the message is not drawn at all. -/
theorem messageLines?_accent :
    messageLines? (List.replicate 60 'x' ++ 'é' :: List.replicate 4 'x') = none := by
  decide

/-- One letter earlier it ends right there, and the line is cut behind it. -/
example : messageLines? (List.replicate 59 'x' ++ 'é' :: List.replicate 4 'x') =
    some ("║  ".toList ++ List.replicate 59 'x' ++ "é...  ║".toList) := by
  decide

end Messages

end ErrorBox
end SplitKeyboard
