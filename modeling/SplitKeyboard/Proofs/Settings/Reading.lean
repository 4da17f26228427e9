import Mathlib.Data.List.TakeWhile
import SplitKeyboard.Proofs.Settings.Rendering
import SplitKeyboard.Settings.Parser

/-!
How the reader on the keyboard takes the lines of a settings file, given what is written on them. The
lines come out of the text as they went in. A line with a key gives the setting that its value tells,
whichever way the value is written.
-/
namespace SplitKeyboard

namespace Text

section Lines

variable {line text : List Char}

theorem linesFrom_feed (current : List Char) (oneLine : '\n' ∉ line) :
    linesFrom current (line ++ '\n' :: text) =
      dropReturn (current.reverse ++ line) :: lines text := by
  induction line generalizing current with
  | nil =>
    rw [List.nil_append, List.append_nil, linesFrom, if_pos rfl]
    rfl
  | cons c line ih =>
    obtain ⟨other, oneLine⟩ := not_or.mp (mt List.mem_cons.mpr oneLine)
    rw [List.cons_append, linesFrom, if_neg (Ne.symm other), ih _ oneLine, List.reverse_cons,
      List.append_assoc, List.singleton_append]

theorem linesFrom_unended (current : List Char) (oneLine : '\n' ∉ line)
    (holds : current.reverse ++ line ≠ []) :
    linesFrom current line = [current.reverse ++ line] := by
  induction line generalizing current with
  | nil =>
    rw [List.append_nil] at holds ⊢
    rw [linesFrom, if_neg (fun empty => holds (by rw [empty, List.reverse_nil]))]
  | cons c line ih =>
    obtain ⟨other, oneLine⟩ := not_or.mp (mt List.mem_cons.mpr oneLine)
    have split : current.reverse ++ c :: line = (c :: current).reverse ++ line := by
      rw [List.reverse_cons, List.append_assoc, List.singleton_append]
    rw [split] at holds ⊢
    rw [linesFrom, if_neg (Ne.symm other), ih _ oneLine holds]

theorem dropReturn_of_ne (kept : line.getLast? ≠ some '\r') : dropReturn line = line :=
  if_neg kept

theorem dropReturn_return (line : List Char) : dropReturn (line ++ ['\r']) = line := by
  rw [dropReturn, List.getLast?_concat, if_pos rfl, List.dropLast_concat]

/-- The lines that a text was laid out with. -/
theorem lines_of_laidOut {lines : List (List Char)} (laid : LaidOut lines text)
    (plain : ∀ line ∈ lines, '\n' ∉ line ∧ line.getLast? ≠ some '\r') :
    Text.lines text = lines := by
  induction laid with
  | nothing => rfl
  | unended some =>
    obtain ⟨oneLine, _⟩ := plain _ (List.mem_cons_self ..)
    exact linesFrom_unended [] oneLine some
  | feed rest ih =>
    obtain ⟨oneLine, kept⟩ := plain _ (List.mem_cons_self ..)
    rw [Text.lines, linesFrom_feed [] oneLine, List.reverse_nil, List.nil_append,
      dropReturn_of_ne kept, ih fun line member => plain line (List.mem_cons_of_mem _ member)]
  | @returnFeed line text lines rest ih =>
    obtain ⟨oneLine, _⟩ := plain _ (List.mem_cons_self ..)
    have whole : '\n' ∉ line ++ ['\r'] := by
      rw [List.mem_append, List.mem_singleton]
      exact not_or.mpr ⟨oneLine, by decide⟩
    have split : line ++ '\r' :: '\n' :: text = (line ++ ['\r']) ++ '\n' :: text := by
      rw [List.append_assoc, List.singleton_append]
    rw [Text.lines, split, linesFrom_feed [] whole, List.reverse_nil, List.nil_append,
      dropReturn_return, ih fun line member => plain line (List.mem_cons_of_mem _ member)]

end Lines

/-- Something to read, without blanks at its ends. -/
structure Trimmed (cs : List Char) : Prop where
  holds : cs ≠ []
  starts : ∀ c ∈ cs.head?, isBlank c = false
  ends : ∀ c ∈ cs.getLast?, isBlank c = false

section Trimmed

variable {cs front back : List Char}

theorem dropWhile_isBlank (starts : ∀ c ∈ cs.head?, isBlank c = false) :
    cs.dropWhile isBlank = cs := by
  cases cs with
  | nil => rfl
  | cons c cs => rw [List.dropWhile_cons, starts c rfl, if_neg Bool.false_ne_true]

theorem Trimmed.trimEnd (trimmed : Trimmed cs) : Text.trimEnd cs = cs := by
  have starts : ∀ c ∈ cs.reverse.head?, isBlank c = false := by
    rw [List.head?_reverse]
    exact trimmed.ends
  rw [Text.trimEnd, dropWhile_isBlank starts, List.reverse_reverse]

theorem Trimmed.trim (trimmed : Trimmed cs) : Text.trim cs = cs := by
  rw [Text.trim, dropWhile_isBlank trimmed.starts, trimmed.trimEnd]

/-- A blank behind is trimmed off. -/
theorem Trimmed.trim_blank (trimmed : Trimmed cs) : Text.trim (cs ++ [' ']) = cs := by
  have starts : ∀ c ∈ (cs ++ [' ']).head?, isBlank c = false := by
    rw [List.head?_append_of_ne_nil _ trimmed.holds]
    exact trimmed.starts
  rw [Text.trim, dropWhile_isBlank starts, Text.trimEnd, List.reverse_append,
    List.reverse_singleton, List.singleton_append]
  exact trimmed.trimEnd

/-- A blank in front is trimmed off. -/
theorem Trimmed.trim_blank_cons (trimmed : Trimmed cs) : Text.trim (' ' :: cs) = cs :=
  trimmed.trim

theorem Trimmed.append (first : Trimmed front) (middle : List Char) (last : Trimmed back) :
    Trimmed (front ++ middle ++ back) := by
  constructor
  · exact List.append_ne_nil_of_right_ne_nil _ last.holds
  · rw [List.append_assoc, List.head?_append_of_ne_nil _ first.holds]
    exact first.starts
  · rw [List.getLast?_append_of_ne_nil _ last.holds]
    exact last.ends

end Trimmed

theorem takeWhile_unmarked {cs : List Char} {mark : Char} (unmarked : mark ∉ cs) :
    cs.takeWhile (· ≠ mark) = cs := by
  rw [List.takeWhile_eq_self_iff]
  intro c member
  rw [decide_eq_true_iff]
  rintro rfl
  exact unmarked member

/-- A value as it stands on its line: nothing of it is taken for something else. -/
structure Plain (value : List Char) : Prop extends Trimmed value where
  uncommented : '#' ∉ value
  oneLine : '\n' ∉ value

theorem plain_of_clear {value : List Char} (holds : value ≠ [])
    (clear : value.all (fun c => !isBlank c && c != '#') = true) : Plain value := by
  have each : ∀ c ∈ value, isBlank c = false ∧ c ≠ '#' := by
    intro c member
    have one := List.all_eq_true.mp clear c member
    rwa [Bool.and_eq_true, Bool.not_eq_true', bne_iff_ne] at one
  constructor
  · constructor
    · exact holds
    · exact fun c first => (each c (List.mem_of_mem_head? first)).1
    · exact fun c last => (each c (List.mem_of_mem_getLast? last)).1
  · exact fun member => (each _ member).2 rfl
  · exact fun member => absurd (each _ member).1 (by decide)

end Text

namespace Settings

open Text (Trimmed Plain)

section Statements

variable {key value : List Char}

theorem cutComment_plain (plain : Plain value) : cutComment value = value := by
  have whole := Text.takeWhile_unmarked plain.uncommented
  unfold cutComment
  simp only [whole]
  split
  · exact plain.trim
  · rfl

theorem readAssignment_plain (trimmed : Trimmed key) (named : '=' ∉ key) (plain : Plain value) :
    readAssignment (key ++ " = ".toList ++ value) = .assignment key value := by
  have before : ∀ c ∈ key ++ [' '], decide (c ≠ '=') = true := by
    intro c member
    rw [decide_eq_true_iff]
    rintro rfl
    rcases List.mem_append.mp member with inside | blank
    · exact named inside
    · exact absurd (List.mem_singleton.mp blank) (by decide)
  have split : key ++ " = ".toList ++ value = (key ++ [' ']) ++ '=' :: ' ' :: value := by
    rw [List.append_assoc, List.append_assoc]
    rfl
  have found : '=' ∈ (key ++ [' ']) ++ '=' :: ' ' :: value :=
    List.mem_append_right _ (List.mem_cons_self ..)
  have taken : ((key ++ [' ']) ++ '=' :: ' ' :: value).takeWhile (· ≠ '=') = key ++ [' '] := by
    rw [List.takeWhile_append_of_pos before]
    exact List.append_nil _
  have dropped : (((key ++ [' ']) ++ '=' :: ' ' :: value).dropWhile (· ≠ '=')).drop 1 =
      ' ' :: value := by
    rw [List.dropWhile_append_of_pos before]
    rfl
  rw [split, readAssignment, if_pos found, taken, dropped, trimmed.trim_blank,
    plain.trim_blank_cons, cutComment_plain plain, if_neg (not_or.mpr ⟨trimmed.holds, plain.holds⟩)]

end Statements

theorem statement_header (heading : Heading) :
    Statement.ofTrimmed (Text.trim ('[' :: heading.name.toList ++ [']'])) =
      .header heading.name.toList := by
  cases heading <;> rfl

theorem plain_name (key : SettingKey) : Plain key.name.toList := by
  cases key <;> exact Text.plain_of_clear (List.cons_ne_nil _ _) rfl

/-- A key and a plain value are told from one another on their line. -/
theorem statement_assignment (key : SettingKey) {value : List Char} (plain : Plain value) :
    Statement.ofTrimmed (Text.trim (key.name.toList ++ " = ".toList ++ value)) =
      .assignment key.name.toList value := by
  have name := plain_name key
  have named : '=' ∉ key.name.toList := by cases key <;> decide
  have unopened : key.name.toList.head? ≠ some '[' := by cases key <;> decide
  have line := name.toTrimmed.append " = ".toList plain.toTrimmed
  have first : (key.name.toList ++ " = ".toList ++ value).head? = key.name.toList.head? := by
    rw [List.append_assoc, List.head?_append_of_ne_nil _ name.holds]
  rw [line.trim, Statement.ofTrimmed, if_neg, if_neg]
  · exact readAssignment_plain name.toTrimmed named plain
  · rw [first]
    exact fun header => unopened header.1
  · rw [first]
    rintro (empty | comment)
    · exact line.holds empty
    · exact name.uncommented (List.mem_of_mem_head? comment)

section Numbers

variable {n : Nat} {text : List Char}

theorem ne_of_isDigit {c mark : Char} (digit : c.isDigit = true) (other : mark.isDigit = false) :
    c ≠ mark := by
  rintro rfl
  rw [digit] at other
  cases other

theorem isBlank_of_isDigit {c : Char} (digit : c.isDigit = true) : Text.isBlank c = false := by
  simp only [Char.isDigit, Bool.and_eq_true, decide_eq_true_eq, UInt32.le_iff_toNat_le] at digit
  obtain ⟨low, high⟩ := digit
  have above : 48 ≤ c.toNat := low
  have below : c.toNat ≤ 57 := high
  simp only [Text.isBlank, Bool.or_eq_false_iff, Bool.and_eq_false_iff, decide_eq_false_iff_not,
    beq_eq_false_iff_ne]
  omega

/-- The characters of a number are digits and underscores. -/
theorem digit_of_shows (shows : ShowsNatural n text) {c : Char} (member : c ∈ text) :
    c.isDigit = true ∨ c = '_' := by
  by_cases separator : c = '_'
  · exact .inr separator
  · have kept : c ∈ text.filter (· ≠ '_') :=
      List.mem_filter.mpr ⟨member, decide_eq_true separator⟩
    rw [shows.digits] at kept
    exact .inl (Nat.isDigit_of_mem_toDigits (by decide) (by decide) kept)

theorem plain_of_shows (shows : ShowsNatural n text) : Plain text := by
  have none_of {mark : Char} (other : mark.isDigit = false) (separates : mark ≠ '_') :
      mark ∉ text := by
    intro member
    rcases digit_of_shows shows member with digit | rfl
    · exact ne_of_isDigit digit other rfl
    · exact separates rfl
  have starts : ∀ c ∈ text.head?, Text.isBlank c = false := by
    intro c first
    rcases digit_of_shows shows (List.mem_of_mem_head? first) with digit | rfl
    · exact isBlank_of_isDigit digit
    · exact absurd first shows.starts
  have ends : ∀ c ∈ text.getLast?, Text.isBlank c = false := by
    intro c last
    rcases digit_of_shows shows (List.mem_of_mem_getLast? last) with digit | rfl
    · exact isBlank_of_isDigit digit
    · exact absurd last shows.ends
  refine ⟨⟨?_, starts, ends⟩, none_of (by decide) (by decide), none_of (by decide) (by decide)⟩
  rintro rfl
  exact Nat.toDigits_ne_nil shows.digits.symm

/-- A number of 32 bits has few enough digits, and the reader takes them for that number. -/
theorem readNumber_shows (shows : ShowsNatural n text) (small : n < UInt32.size) :
    readNumber text = some (UInt32.ofNat n) := by
  have digits : ∀ c ∈ Nat.toDigits 10 n, c.isDigit = true := fun c =>
    Nat.isDigit_of_mem_toDigits (by decide) (by decide)
  have unsigned : (Nat.toDigits 10 n).head? ≠ some '+' := by
    intro plus
    exact ne_of_isDigit (digits _ (List.mem_of_mem_head? plus)) (by decide) rfl
  have few : (Nat.toDigits 10 n).length ≤ numberLimit :=
    (Nat.length_toDigits_le_iff (by decide) (by decide)).mpr (Nat.lt_trans small (by decide))
  have value : (Nat.toDigits 10 n).foldl (fun n c => 10 * n + (c.toNat - '0'.toNat)) 0 = n :=
    Nat.ofDigitChars_toDigits (by decide) (by decide)
  have readable : ¬ (numberLimit < (Nat.toDigits 10 n).length ∨ Nat.toDigits 10 n = [] ∨
      !(Nat.toDigits 10 n).all Char.isDigit) := by
    rintro (many | none | other)
    · omega
    · exact Nat.toDigits_ne_nil none
    · rw [List.all_eq_true.mpr digits] at other
      cases other
  simp only [readNumber, shows.digits, if_neg unsigned, if_neg readable, value, if_pos small]

end Numbers

section Values

variable {setting : Setting} {value : SettingsValue} {text : List Char}

theorem shows_natCast {n : Nat} (shows : (SettingsValue.integer n).Shows text) :
    ShowsNatural n text := by
  obtain ⟨digits, shows, rfl⟩ := shows
  exact shows

theorem numberOr_shows {ms : UInt32} {make : UInt32 → Setting}
    (shows : (SettingsValue.integer ms.toNat).Shows text) :
    Plain text ∧ numberOr text make = .ok (make ms) := by
  have number := shows_natCast shows
  refine ⟨plain_of_shows number, ?_⟩
  rw [numberOr, readNumber_shows number ms.toNat_lt, UInt32.ofNat_toNat]

/-- A setting is read from each way to write a value that tells it. -/
theorem readValue_told (told : setting.ToldBy value) (shows : value.Shows text) :
    Plain text ∧ readValue setting.key text = .ok setting := by
  cases told with
  | speed speed =>
    have number := shows_natCast shows
    have small : speed.baudrate < UInt32.size := by cases speed <;> decide
    refine ⟨plain_of_shows number, ?_⟩
    rw [Setting.key, readValue, readNumber_shows number small]
    simp only [UInt32.toNat_ofNat_of_lt' small, Speed.ofBaudrate?_baudrate]
  | timeout | checkInterval | idleTimeout => exact numberOr_shows shows
  | duplex =>
    cases shows
    exact ⟨Text.plain_of_clear (List.cons_ne_nil _ _) rfl, rfl⟩
  | flag high =>
    cases shows
    cases high <;> exact ⟨Text.plain_of_clear (List.cons_ne_nil _ _) rfl, rfl⟩
  | level high =>
    cases shows
    cases high <;> exact ⟨Text.plain_of_clear (List.cons_ne_nil _ _) rfl, rfl⟩

end Values

end Settings
end SplitKeyboard
