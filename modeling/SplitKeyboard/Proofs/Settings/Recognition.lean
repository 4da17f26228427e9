import SplitKeyboard.Proofs.Settings.Acceptance
import SplitKeyboard.Proofs.Settings.Grammar

/-!
The reader accepts the notation of settings files and nothing else. Each of its parts is met by the
part of the notation that it reads, both ways, up to all lines of a file.
-/
namespace SplitKeyboard

namespace Settings

section Numbers

variable {text : List Char} {n : UInt32}

theorem utf8Size_of_isDigit {c : Char} (digit : c.isDigit = true) : c.utf8Size = 1 := by
  simp only [Char.isDigit, Bool.and_eq_true, decide_eq_true_eq] at digit
  rw [Char.utf8Size_eq_one_iff]
  exact UInt32.le_trans digit.2 (by decide)

/-- Each character of a number takes one byte. -/
theorem byteLength_number {sign digits : List Char} (signs : sign = [] ∨ sign = ['+'])
    (decimal : ∀ c ∈ digits, c.isDigit = true) :
    Text.byteLength (sign ++ digits) = (sign ++ digits).length := by
  refine Text.byteLength_of_utf8Size fun c member => ?_
  rcases List.mem_append.mp member with leads | digit
  · rcases signs with rfl | rfl
    · cases leads
    · rw [List.mem_singleton.mp leads]
      rfl
  · exact utf8Size_of_isDigit (decimal c digit)

theorem readNumber_sound (read : readNumber text = some n) : Numeral text n.toNat := by
  unfold readNumber at read
  dsimp only at read
  generalize written : text.filter (· ≠ '_') = kept at read
  generalize unsigned : (if kept.head? = some '+' then kept.tail else kept) = digits at read
  split at read
  · cases read
  · next readable =>
    obtain ⟨short, readable⟩ := not_or.mp readable
    obtain ⟨some_digit, decimal⟩ := not_or.mp readable
    have decimal : ∀ c ∈ digits, c.isDigit = true := by simpa using decimal
    split at read
    · next small =>
      cases read
      have sign : ∃ sign, kept = sign ++ digits ∧ (sign = [] ∨ sign = ['+']) := by
        subst unsigned
        split
        · next plus =>
          obtain ⟨rest, rfl⟩ := List.head?_eq_some_iff.mp plus
          exact ⟨['+'], rfl, .inr rfl⟩
        · exact ⟨[], rfl, .inl rfl⟩
      obtain ⟨sign, rfl, signs⟩ := sign
      refine ⟨sign, digits, written, signs, some_digit, decimal, ?_, ?_, UInt32.toNat_lt _⟩
      · rw [written, byteLength_number signs decimal]
        exact Nat.le_of_not_lt short
      · exact (UInt32.toNat_ofNat_of_lt' small).symm
    · cases read

theorem readNumber_complete (numeral : Numeral text n.toNat) : readNumber text = some n := by
  obtain ⟨sign, digits, written, signs, some_digit, decimal, short, value, small⟩ := numeral
  rw [written, byteLength_number signs decimal] at short
  have unsigned : (if (sign ++ digits).head? = some '+' then (sign ++ digits).tail
      else sign ++ digits) = digits := by
    rcases signs with rfl | rfl
    · have digit_first : digits.head? ≠ some '+' := by
        intro plus
        exact ne_of_isDigit (decimal _ (List.mem_of_mem_head? plus)) (by decide) rfl
      exact if_neg digit_first
    · exact if_pos rfl
  have readable : ¬ (numberLimit < (sign ++ digits).length ∨ digits = [] ∨
      !digits.all Char.isDigit) := by
    rintro (long | empty | other)
    · exact absurd short (Nat.not_le_of_lt long)
    · exact some_digit empty
    · rw [List.all_eq_true.mpr decimal] at other
      cases other
  have total : digits.foldl (fun n c => 10 * n + (c.toNat - '0'.toNat)) 0 = n.toNat := value
  simp only [readNumber, written, unsigned, if_neg readable, total, if_pos small, UInt32.ofNat_toNat]

theorem readNumber_eq_some_iff : readNumber text = some n ↔ Numeral text n.toNat :=
  ⟨readNumber_sound, readNumber_complete⟩

end Numbers

section Values

variable {key : SettingKey} {text : List Char} {setting : Setting}

/-- Only a word, or the word between quotes, is that word without its quotes. -/
theorem unquote_eq_iff {word : String} (bare : word.toList.head? ≠ some '"') :
    unquote text = word.toList ↔ Spells text word := by
  unfold unquote
  split
  · next enclosed =>
    constructor
    · exact fun inner => .inr (Text.eq_enclosed_iff.mpr ⟨enclosed, inner⟩)
    · rintro (rfl | quoted)
      · exact absurd enclosed.1 bare
      · exact (Text.eq_enclosed_iff.mp quoted).2
  · next open_ended =>
    constructor
    · exact .inl
    · rintro (same | quoted)
      · exact same
      · exact absurd (Text.eq_enclosed_iff.mp quoted).1 open_ended

theorem numberOr_eq_ok_iff {make : UInt32 → Setting} :
    numberOr text make = .ok setting ↔ ∃ n : UInt32, Numeral text n.toNat ∧ make n = setting := by
  simp only [← readNumber_eq_some_iff]
  unfold numberOr
  cases readNumber text with
  | none => simp
  | some n => simp

theorem baudrate_of_ofBaudrate? {rate : Nat} {speed : Speed}
    (found : Speed.ofBaudrate? rate = some speed) : speed.baudrate = rate := by
  have same := List.find?_some found
  exact eq_of_beq same

theorem readValue_sound (read : readValue key text = .ok setting) :
    setting.key = key ∧ setting.WrittenAs text := by
  cases key with
  | speed =>
    simp only [readValue] at read
    split at read
    · cases read
    · next rate number =>
      split at read
      · next speed found =>
        cases read
        have numeral := readNumber_sound number
        rw [← baudrate_of_ofBaudrate? found] at numeral
        exact ⟨rfl, .speed numeral⟩
      · cases read
  | duplex =>
    simp only [readValue] at read
    split at read
    · cases read
    · split at read
      · next full =>
        cases read
        exact ⟨rfl, .duplex ((unquote_eq_iff (by decide)).mp full)⟩
      · cases read
  | timeout =>
    obtain ⟨ms, numeral, rfl⟩ := numberOr_eq_ok_iff.mp read
    exact ⟨rfl, .timeout numeral⟩
  | checkInterval =>
    obtain ⟨ms, numeral, rfl⟩ := numberOr_eq_ok_iff.mp read
    exact ⟨rfl, .checkInterval numeral⟩
  | idleTimeout =>
    obtain ⟨ms, numeral, rfl⟩ := numberOr_eq_ok_iff.mp read
    exact ⟨rfl, .idleTimeout numeral⟩
  | initiatorLevel =>
    simp only [readValue] at read
    split at read
    · next high =>
      cases read
      exact ⟨rfl, .high (high.imp (unquote_eq_iff (by decide)).mp (unquote_eq_iff (by decide)).mp)⟩
    · split at read
      · next low =>
        cases read
        exact ⟨rfl, .low (low.imp (unquote_eq_iff (by decide)).mp (unquote_eq_iff (by decide)).mp)⟩
      · cases read

theorem readValue_complete (written : setting.WrittenAs text) :
    readValue setting.key text = .ok setting := by
  cases written with
  | @speed speed _ rate =>
    have small : speed.baudrate < UInt32.size := by cases speed <;> decide
    have back : (UInt32.ofNat speed.baudrate).toNat = speed.baudrate :=
      UInt32.toNat_ofNat_of_lt' small
    rw [← back] at rate
    simp only [Setting.key, readValue, readNumber_complete rate, back, Speed.ofBaudrate?_baudrate]
  | duplex full =>
    have word := (unquote_eq_iff (by decide)).mpr full
    simp only [Setting.key, readValue, word]
    rfl
  | timeout time => exact numberOr_eq_ok_iff.mpr ⟨_, time, rfl⟩
  | checkInterval time => exact numberOr_eq_ok_iff.mpr ⟨_, time, rfl⟩
  | idleTimeout time => exact numberOr_eq_ok_iff.mpr ⟨_, time, rfl⟩
  | high word =>
    refine if_pos ?_
    exact word.imp (unquote_eq_iff (by decide)).mpr (unquote_eq_iff (by decide)).mpr
  | low word =>
    have low := word.imp (unquote_eq_iff (by decide)).mpr (unquote_eq_iff (by decide)).mpr
    simp only [Setting.key, readValue, if_pos low]
    rcases low with word | word <;> rw [word] <;> rfl

theorem readValue_eq_ok_iff :
    readValue key text = .ok setting ↔ setting.key = key ∧ setting.WrittenAs text := by
  constructor
  · exact readValue_sound
  · rintro ⟨rfl, written⟩
    exact readValue_complete written

end Values

section Lines

variable {line key rest value left : List Char} {heading : Heading} {setting : Setting}

theorem cutComment_of_leaves (trimmed : Text.trim value = value) (leaves : Leaves value left) :
    cutComment value = left := by
  unfold cutComment
  cases leaves with
  | bare plain =>
    simp only [Text.takeWhile_unmarked plain, trimmed, ite_self]
  | @comment before after first balanced =>
    simp only [(Text.takeWhile_mark first after).1, if_pos balanced]
  | @quoted before after first opened =>
    have odd : ¬ before.count '"' % 2 = 0 := by omega
    simp only [(Text.takeWhile_mark first after).1, if_neg odd]

theorem leaves_cutComment (trimmed : Text.trim value = value) :
    Leaves value (cutComment value) := by
  by_cases marked : '#' ∈ value
  · obtain ⟨before, after, rfl, first⟩ := List.eq_append_cons_of_mem marked
    rcases Nat.mod_two_eq_zero_or_one (before.count '"') with balanced | opened
    · have leaves : Leaves (before ++ '#' :: after) (Text.trim before) := .comment first balanced
      rwa [cutComment_of_leaves trimmed leaves]
    · have leaves : Leaves (before ++ '#' :: after) (before ++ '#' :: after) := .quoted first opened
      rwa [cutComment_of_leaves trimmed leaves]
  · have leaves : Leaves value value := .bare marked
    rwa [cutComment_of_leaves trimmed leaves]

theorem leaves_iff (trimmed : Text.trim value = value) :
    Leaves value left ↔ cutComment value = left :=
  ⟨cutComment_of_leaves trimmed, fun same => same ▸ leaves_cutComment trimmed⟩

theorem keyValue_iff : KeyValue line key rest ↔ '=' ∈ Text.trim line ∧
    Text.trim ((Text.trim line).takeWhile (· ≠ '=')) = key ∧
    ((Text.trim line).dropWhile (· ≠ '=')).drop 1 = rest := by
  constructor
  · rintro ⟨before, split, first, rfl⟩
    obtain ⟨front, back⟩ := Text.takeWhile_mark first rest
    rw [split, front, back]
    exact ⟨by simp, rfl, rfl⟩
  · rintro ⟨marked, rfl, rfl⟩
    obtain ⟨before, after, split, first⟩ := List.eq_append_cons_of_mem marked
    obtain ⟨front, back⟩ := Text.takeWhile_mark first after
    rw [split, front, back]
    exact ⟨before, split, first, rfl⟩

/-- An assignment that is read has both sides. -/
theorem readAssignment_eq_iff : readAssignment (Text.trim line) = .assignment key value ↔
    key ≠ [] ∧ value ≠ [] ∧ ∃ rest, KeyValue line key rest ∧ Leaves (Text.trim rest) value := by
  simp only [leaves_iff (Text.trim_trim _), keyValue_iff]
  unfold readAssignment
  by_cases marked : '=' ∈ Text.trim line
  · simp only [if_pos marked]
    constructor
    · intro read
      split at read
      · cases read
      · next sides =>
        cases read
        obtain ⟨some_key, some_value⟩ := not_or.mp sides
        exact ⟨some_key, some_value, _, ⟨marked, rfl, rfl⟩, rfl⟩
    · rintro ⟨some_key, some_value, rest, ⟨_, rfl, rfl⟩, rfl⟩
      exact if_neg (not_or.mpr ⟨some_key, some_value⟩)
  · simp [marked]

/-- A line is idle, or stands between brackets, or is read as an assignment. -/
theorem statement_cases (line : List Char) :
    (Idle line ∧ Statement.ofTrimmed (Text.trim line) = .nothing) ∨
    (∃ inner, Bracketed line inner ∧
      Statement.ofTrimmed (Text.trim line) = .header (Text.trim inner)) ∨
    (¬ Idle line ∧ (∀ inner, ¬ Bracketed line inner) ∧
      Statement.ofTrimmed (Text.trim line) = readAssignment (Text.trim line)) := by
  unfold Statement.ofTrimmed
  by_cases idle : Text.trim line = [] ∨ (Text.trim line).head? = some '#'
  · exact .inl ⟨idle, if_pos idle⟩
  · rw [if_neg idle]
    split
    · next marks => exact .inr (.inl ⟨_, bracketed_iff.mpr ⟨marks, rfl⟩, rfl⟩)
    · next marks =>
      exact .inr (.inr ⟨idle, fun inner between => marks (bracketed_iff.mp between).1, rfl⟩)

/-- The first character of an assignment is that of its key. -/
theorem head?_of_keyValue (reads : KeyValue line key rest) (holds : key ≠ []) :
    (Text.trim line).head? = key.head? := by
  obtain ⟨before, split, _, rfl⟩ := reads
  have some_before : before ≠ [] := by
    rintro rfl
    exact holds rfl
  have same : (Text.trim line).head? = before.head? := by
    rw [split, List.head?_append_of_ne_nil _ some_before]
  rw [same]
  exact Text.head?_trim (same ▸ Text.trim_starts line) holds

theorem readAssignment_cases (line : List Char) : readAssignment line = .malformed ∨
    ∃ key value, readAssignment line = .assignment key value := by
  unfold readAssignment
  dsimp only
  split
  · split
    · exact .inl rfl
    · exact .inr ⟨_, _, rfl⟩
  · exact .inl rfl

theorem readSetting_eq_ok_iff {current : Option Heading} :
    readSetting current key value = .ok setting ↔ current = some setting.key.heading ∧
      setting.key.name.toList = key ∧ setting.WrittenAs value := by
  have named {found : SettingKey} : found.name = String.ofList key ↔ found.name.toList = key := by
    rw [← String.toList_inj, String.toList_ofList]
  unfold readSetting
  constructor
  · intro read
    split at read
    · cases read
    · next found known =>
      obtain ⟨heading, rfl, known⟩ := Option.bind_eq_some_iff.mp known
      obtain ⟨rfl, name⟩ := SettingKey.find?_eq_some_iff.mp known
      obtain ⟨rfl, written⟩ := readValue_eq_ok_iff.mp read
      exact ⟨rfl, named.mp name, written⟩
  · rintro ⟨rfl, name, written⟩
    have known := SettingKey.find?_eq_some_iff.mpr ⟨rfl, named.mpr name⟩
    simp only [Option.bind_some, known]
    exact readValue_complete written

end Lines
end Settings

section Lines

variable {line inner : List Char} {heading : Heading} {setting : Setting}

/-- An assignment begins with its key, so it is neither a comment nor a header. -/
theorem Assigns.first (assigns : Assigns heading line setting) :
    ∃ c, (Text.trim line).head? = some c ∧ c ≠ '#' ∧ c ≠ '[' := by
  obtain ⟨_, rest, value, reads, _⟩ := assigns
  have holds : setting.key.name.toList ≠ [] := by cases setting.key <;> decide
  rw [Settings.head?_of_keyValue reads holds]
  cases setting.key <;> exact ⟨_, rfl, by decide, by decide⟩

theorem Assigns.not_idle (assigns : Assigns heading line setting) : ¬ Idle line := by
  obtain ⟨c, first, uncommented, _⟩ := assigns.first
  rintro (blank | comment)
  · rw [blank] at first
    cases first
  · exact uncommented (Option.some.inj (first.symm.trans comment))

theorem Assigns.not_bracketed (assigns : Assigns heading line setting) :
    ¬ Bracketed line inner := by
  obtain ⟨c, first, _, unopened⟩ := assigns.first
  exact fun between =>
    unopened (Option.some.inj (first.symm.trans (bracketed_iff.mp between).1.1))

theorem Bracketed.not_idle (between : Bracketed line inner) : ¬ Idle line := by
  have opened := (bracketed_iff.mp between).1.1
  rintro (blank | comment)
  · rw [blank] at opened
    cases opened
  · rw [opened] at comment
    cases comment

theorem Bracketed.unique {other : List Char} (between : Bracketed line inner)
    (also : Bracketed line other) : inner = other :=
  (bracketed_iff.mp between).2.symm.trans (bracketed_iff.mp also).2

theorem openedBy_of_openedBy? (found : Heading.openedBy? line = some heading) :
    heading.OpenedBy line := by
  have opens := List.find?_some found
  exact of_decide_eq_true opens

theorem openedBy?_eq_none (unbracketed : ∀ inner, ¬ Bracketed line inner) :
    Heading.openedBy? line = none := by
  rw [Option.eq_none_iff_forall_ne_some]
  intro heading found
  obtain ⟨inner, between, _⟩ := openedBy_of_openedBy? found
  exact unbracketed inner between

theorem openedBy?_of_openedBy (opens : heading.OpenedBy line) :
    Heading.openedBy? line = some heading := by
  obtain ⟨inner, between, name⟩ := opens
  cases found : Heading.openedBy? line with
  | none =>
    have all := List.find?_eq_none.mp found heading (by cases heading <;> decide)
    exact absurd (decide_eq_true ⟨inner, between, name⟩) all
  | some other =>
    obtain ⟨again, also, other_name⟩ := openedBy_of_openedBy? found
    rw [← between.unique also, name, String.toList_inj] at other_name
    rw [name_injective other_name]

theorem ofName?_eq_some_iff {name : List Char} :
    Heading.ofName? (String.ofList name) = some heading ↔ name = heading.name.toList := by
  constructor
  · intro found
    rw [name_of_ofName? found, String.toList_ofList]
  · rintro rfl
    rw [String.ofList_toList, ofName?_name]

end Lines

namespace Settings

variable {current : Option Heading} {lines : List (List Char)} {list : List Setting}

theorem readLines_sound (read : readLines current lines = .ok list) :
    Says (placed current lines) list := by
  -- A header changes the section for all that follows, so the section is generalised.
  induction lines generalizing current list with
  | nil =>
    cases read
    exact .nothing
  | cons line rest ih =>
    rw [readLines] at read
    rw [placed]
    rcases statement_cases line with ⟨idle, told⟩ | ⟨inner, between, told⟩ | ⟨_, unbracketed, told⟩
    · simp only [told] at read
      rw [openedBy?_eq_none fun inner between => between.not_idle idle]
      exact .idle idle (ih read)
    · simp only [told] at read
      split at read
      · cases read
      · next heading named =>
        rw [openedBy?_of_openedBy ⟨inner, between, ofName?_eq_some_iff.mp named⟩]
        exact ih read
    · rw [openedBy?_eq_none unbracketed]
      rcases readAssignment_cases (Text.trim line) with malformed | ⟨key, value, assigned⟩
      · simp only [told, malformed] at read
        cases read
      · simp only [told, assigned] at read
        obtain ⟨_, _, parts, reads, leaves⟩ := readAssignment_eq_iff.mp assigned
        split at read
        · cases read
        · next setting known =>
          obtain ⟨rfl, rfl, written⟩ := readSetting_eq_ok_iff.mp known
          cases more : readLines (some setting.key.heading) rest with
          | error error =>
            rw [more] at read
            cases read
          | ok others =>
            rw [more] at read
            cases read
            exact .assigns ⟨rfl, parts, value, reads, leaves, written⟩ (ih more)

theorem readLines_complete (said : Says (placed current lines) list) :
    readLines current lines = .ok list := by
  induction lines generalizing current list with
  | nil =>
    cases said
    rfl
  | cons line rest ih =>
    rw [placed] at said
    rw [readLines]
    split at said
    · next heading found =>
      obtain ⟨inner, between, name⟩ := openedBy_of_openedBy? found
      rcases statement_cases line with ⟨idle, _⟩ | ⟨again, also, told⟩ | ⟨_, unbracketed, _⟩
      · exact absurd idle between.not_idle
      · rw [between.unique also] at name
        simp only [told, ofName?_eq_some_iff.mpr name]
        exact ih said
      · exact absurd between (unbracketed inner)
    · cases said with
      | idle idle more =>
        simp only [show Statement.ofTrimmed (Text.trim line) = .nothing from if_pos idle]
        exact ih more
      | @assigns heading _ _ setting others assigns more =>
        obtain ⟨known, parts, value, reads, leaves, written⟩ := id assigns
        have some_key : setting.key.name.toList ≠ [] := by cases setting.key <;> decide
        have assigned := readAssignment_eq_iff.mpr
          ⟨some_key, written.ne_nil, parts, reads, leaves⟩
        rcases statement_cases line with ⟨idle, _⟩ | ⟨_, between, _⟩ | ⟨_, _, told⟩
        · exact absurd idle assigns.not_idle
        · exact absurd between assigns.not_bracketed
        · have read := readSetting_eq_ok_iff.mpr ⟨congrArg some known.symm, rfl, written⟩
          simp only [told, assigned, read, ih more]
          rfl

theorem readLines_eq_ok_iff :
    readLines current lines = .ok list ↔ Says (placed current lines) list :=
  ⟨readLines_sound, readLines_complete⟩

end Settings
end SplitKeyboard
