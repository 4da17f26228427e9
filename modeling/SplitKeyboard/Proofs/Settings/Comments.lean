import SplitKeyboard.Proofs.Settings.LastValues

/-!
Comments behind the lines of a settings file. Behind an assignment or a blank line a comment changes
nothing, whatever it says: a value that is accepted has no string left open. A header with a comment
behind it is no header any more, since it is told by its last character, and the file is refused.
-/
namespace SplitKeyboard

namespace Text

variable {line before after text cs gap comment : List Char} {mark : Char}

/-- In this text stands this line, with this before it and this behind it. -/
structure StandsIn (line before after : List Char) : Prop where
  begins : before = [] ∨ before.getLast? = some '\n'
  oneLine : '\n' ∉ line
  ends : after = [] ∨ after.head? = some '\n' ∨ ∃ rest, after = '\r' :: '\n' :: rest

/-- The line with a comment behind it. -/
def commented (line comment : List Char) : List Char := line ++ ' ' :: '#' :: comment

section Trim

theorem dropWhile_mark (cs : List Char) {rest : List Char} (visible : isBlank mark = false) :
    (cs ++ mark :: rest).dropWhile isBlank = cs.dropWhile isBlank ++ mark :: rest := by
  have kept : (mark :: rest).dropWhile isBlank = mark :: rest :=
    List.dropWhile_cons_of_neg (by simp [visible])
  rw [List.dropWhile_append, kept]
  split
  · next empty => rw [List.isEmpty_iff.mp empty, List.nil_append]
  · rfl

/-- A character that is not blank is where trimming ends, from both sides. -/
theorem trim_mark (cs rest : List Char) (visible : isBlank mark = false) :
    trim (cs ++ mark :: rest) = cs.dropWhile isBlank ++ mark :: trimEnd rest := by
  have back : (cs.dropWhile isBlank ++ mark :: rest).reverse =
      rest.reverse ++ mark :: (cs.dropWhile isBlank).reverse := by simp
  rw [trim, dropWhile_mark cs visible, trimEnd, back, dropWhile_mark _ visible, trimEnd,
    List.reverse_append, List.reverse_cons, List.reverse_reverse, List.append_assoc,
    List.singleton_append]

theorem trim_append_blanks (blank : ∀ c ∈ gap, isBlank c = true) : trim (cs ++ gap) = trim cs := by
  have behind (front : List Char) : trimEnd (front ++ gap) = trimEnd front := by
    rw [trimEnd, List.reverse_append, List.dropWhile_append_of_pos, trimEnd]
    exact fun c member => blank c (List.mem_reverse.mp member)
  rw [trim, List.dropWhile_append, trim]
  split
  · next empty =>
    rw [List.isEmpty_iff.mp empty, List.dropWhile_eq_nil_iff.mpr blank]
  · exact behind _

theorem trim_dropWhile (cs : List Char) : trim (cs.dropWhile isBlank) = trim cs := by
  rw [trim, List.dropWhile_idempotent, trim]

theorem exists_gap (cs : List Char) :
    ∃ gap, (∀ c ∈ gap, isBlank c = true) ∧ cs.dropWhile isBlank = trim cs ++ gap := by
  refine ⟨((cs.dropWhile isBlank).reverse.takeWhile isBlank).reverse, ?_, ?_⟩
  · exact fun c member => List.mem_takeWhile_imp (List.mem_reverse.mp member)
  · rw [trim, trimEnd, ← List.reverse_append, List.takeWhile_append_dropWhile, List.reverse_reverse]

theorem mem_of_mem_trim {c : Char} (member : c ∈ trim cs) : c ∈ cs := by
  obtain ⟨gap, _, split⟩ := exists_gap cs
  refine (List.dropWhile_sublist isBlank).mem ?_
  rw [split]
  exact List.mem_append_left _ member

theorem count_trim (visible : isBlank mark = false) : (trim cs).count mark = cs.count mark := by
  have unmarked (front : List Char) : (front.takeWhile isBlank).count mark = 0 := by
    refine List.count_eq_zero.mpr fun member => ?_
    rw [List.mem_takeWhile_imp member] at visible
    cases visible
  have start (front : List Char) : (front.dropWhile isBlank).count mark = front.count mark := by
    have split : (front.takeWhile isBlank ++ front.dropWhile isBlank).count mark =
        front.count mark := by rw [List.takeWhile_append_dropWhile]
    rwa [List.count_append, unmarked, Nat.zero_add] at split
  rw [trim, trimEnd, List.count_reverse, start, List.count_reverse, start]

/-- With a comment behind it a line begins as before, and the comment begins at its hash. -/
theorem trim_commented (line comment : List Char) : ∃ gap, (∀ c ∈ gap, isBlank c = true) ∧
    trim (commented line comment) = trim line ++ gap ++ '#' :: trimEnd comment := by
  obtain ⟨gap, blank, split⟩ := exists_gap (line ++ [' '])
  have hash : commented line comment = (line ++ [' ']) ++ '#' :: comment := by simp [commented]
  have space : trim (line ++ [' ']) = trim line :=
    trim_append_blanks fun c member => by rw [List.mem_singleton.mp member]; rfl
  refine ⟨gap, blank, ?_⟩
  rw [hash, trim_mark _ _ rfl, split, space]

end Trim

section Lines

theorem linesFrom_ended (current front rest : List Char) :
    linesFrom current (front ++ '\n' :: rest) =
      linesFrom current (front ++ ['\n']) ++ lines rest := by
  induction front generalizing current with
  | nil => rfl
  | cons c front ih =>
    rw [List.cons_append, List.cons_append, linesFrom, linesFrom]
    split
    · exact congrArg (List.cons _) (ih [])
    · exact ih _

theorem trim_dropReturn (line : List Char) : trim (dropReturn line) = trim line := by
  unfold dropReturn
  split
  · next last =>
    obtain ⟨front, rfl⟩ := List.getLast?_eq_some_iff.mp last
    rw [List.dropLast_concat, trim_append_blanks]
    exact fun c member => by rw [List.mem_singleton.mp member]; rfl
  · rfl

/-- The lines of a text in which some line stands, but for blanks at the ends of that line. Nothing
is a line only if it is followed by something. -/
theorem StandsIn.lines_eq (stands : StandsIn line before after) :
    ∃ below, ∀ other, '\n' ∉ other → ∃ own, lines (before ++ other ++ after) =
      lines before ++ own ++ below ∧ (other = [] ∧ own = [] ∨ ∃ shown, own = [shown] ∧
        trim shown = trim other) := by
  have front (rest : List Char) : lines (before ++ rest) = lines before ++ lines rest := by
    rcases stands.begins with rfl | fed
    · rfl
    · obtain ⟨above, rfl⟩ := List.getLast?_eq_some_iff.mp fed
      rw [List.append_assoc, List.singleton_append]
      exact linesFrom_ended [] above rest
  simp only [List.append_assoc, front]
  rcases stands.ends with rfl | fed | ⟨rest, rfl⟩
  · refine ⟨[], fun other oneLine => ?_⟩
    by_cases nothing : other = []
    · exact ⟨[], by rw [nothing]; rfl, .inl ⟨nothing, rfl⟩⟩
    · refine ⟨[other], ?_, .inr ⟨other, rfl, rfl⟩⟩
      rw [List.append_nil, List.append_nil]
      exact congrArg _ (linesFrom_unended [] oneLine nothing)
  · obtain ⟨rest, rfl⟩ := List.head?_eq_some_iff.mp fed
    refine ⟨lines rest, fun other oneLine => ?_⟩
    refine ⟨[dropReturn other], ?_, .inr ⟨_, rfl, trim_dropReturn other⟩⟩
    exact congrArg _ (linesFrom_feed [] oneLine)
  · refine ⟨lines rest, fun other oneLine => ?_⟩
    refine ⟨[other], ?_, .inr ⟨other, rfl, rfl⟩⟩
    have whole : '\n' ∉ other ++ ['\r'] := by
      rw [List.mem_append, List.mem_singleton]
      exact not_or.mpr ⟨oneLine, by decide⟩
    have split : other ++ '\r' :: '\n' :: rest = (other ++ ['\r']) ++ '\n' :: rest := by simp
    have ended : linesFrom [] ((other ++ ['\r']) ++ '\n' :: rest) = other :: lines rest := by
      rw [linesFrom_feed [] whole, List.reverse_nil, List.nil_append, dropReturn_return]
    rw [split]
    exact congrArg _ ended

end Lines

end Text

open Text (StandsIn commented)

section Notation

variable {line comment inner text : List Char} {heading : Heading} {setting : Setting}

theorem Numeral.balanced {n : Nat} (numeral : Numeral text n) : text.count '"' % 2 = 0 := by
  obtain ⟨sign, digits, written, signs, _, decimal, _⟩ := numeral
  have unquoted : '"' ∉ text := by
    intro member
    have kept : '"' ∈ text.filter (· ≠ '_') := List.mem_filter.mpr ⟨member, rfl⟩
    rw [written] at kept
    rcases List.mem_append.mp kept with leads | digit
    · rcases signs with rfl | rfl <;> simp at leads
    · cases decimal _ digit
  rw [List.count_eq_zero.mpr unquoted]

theorem Spells.balanced {word : String} (spells : Spells text word)
    (bare : word.toList.count '"' = 0) : text.count '"' % 2 = 0 := by
  rcases spells with rfl | rfl
  · rw [bare]
  · rw [List.count_append, List.count_cons_self, bare]
    rfl

/-- No string is left open in a value. -/
theorem Setting.WrittenAs.balanced (written : setting.WrittenAs text) :
    text.count '"' % 2 = 0 := by
  cases written with
  | speed number | timeout number | checkInterval number | idleTimeout number =>
    exact number.balanced
  | duplex full => exact full.balanced (by decide)
  | high word | low word => exact word.elim (·.balanced (by decide)) (·.balanced (by decide))

theorem Idle.commented (idle : Idle line) (bare : '#' ∉ line) (comment : List Char) :
    Idle (commented line comment) := by
  rcases idle with blank | hash
  · obtain ⟨gap, blanks, split⟩ := Text.trim_commented line comment
    have starts := Text.trim_starts (Text.commented line comment)
    rw [blank, List.nil_append] at split
    refine .inr ?_
    rw [split] at starts ⊢
    -- What is trimmed begins with no blank, so no gap is left before the hash.
    cases gap with
    | nil => rfl
    | cons c gap => cases (starts c rfl).symm.trans (blanks c (List.mem_cons_self ..))
  · exact absurd (Text.mem_of_mem_trim (List.mem_of_mem_head? hash)) bare

theorem Assigns.commented (assigns : Assigns heading line setting) (bare : '#' ∉ line)
    (comment : List Char) : Assigns heading (commented line comment) setting := by
  obtain ⟨known, rest, value, ⟨front, split, first, key⟩, leaves, written⟩ := assigns
  obtain ⟨gap, blank, whole⟩ := Text.trim_commented line comment
  have bare_rest : '#' ∉ rest := by
    intro member
    refine bare (Text.mem_of_mem_trim ?_)
    rw [split]
    exact List.mem_append_right _ (List.mem_cons_of_mem _ member)
  have same : value = Text.trim rest := by
    have uncut : Leaves (Text.trim rest) (Text.trim rest) :=
      .bare (mt Text.mem_of_mem_trim bare_rest)
    rw [← (Settings.leaves_iff (Text.trim_trim _)).mp leaves,
      (Settings.leaves_iff (Text.trim_trim _)).mp uncut]
  refine ⟨known, rest ++ gap ++ '#' :: Text.trimEnd comment, value, ⟨front, ?_, first, key⟩, ?_,
    written⟩
  · rw [whole, split]
    simp
  · have ahead : '#' ∉ (rest ++ gap).dropWhile Text.isBlank := by
      intro member
      rcases List.mem_append.mp ((List.dropWhile_sublist _).mem member) with inside | behind
      · exact bare_rest inside
      · cases blank _ behind
    have trimmed : Text.trim ((rest ++ gap).dropWhile Text.isBlank) = value := by
      rw [Text.trim_dropWhile, Text.trim_append_blanks blank, same]
    have balanced : ((rest ++ gap).dropWhile Text.isBlank).count '"' % 2 = 0 := by
      rw [← Text.count_trim rfl, trimmed]
      exact written.balanced
    have cut : Leaves ((rest ++ gap).dropWhile Text.isBlank ++ '#' ::
        Text.trimEnd (Text.trimEnd comment)) _ := .comment ahead balanced
    rwa [trimmed, ← Text.trim_mark _ _ rfl] at cut

end Notation

namespace Settings

variable {line before after comment inner : List Char} {above below : List (List Char)}
  {current : Option Heading} {list : List Setting} {settings : Settings}

section Reading

/-- What has been read of a file that is accepted goes on in the same way whatever follows. -/
theorem readLines_after {rest : List (List Char)}
    (read : readLines current (above ++ rest) = .ok list) :
    ∃ later front tail, readLines later rest = .ok tail ∧ list = front ++ tail ∧
      ∀ other, readLines current (above ++ other) = (readLines later other).map (front ++ ·) := by
  induction above generalizing current list with
  | nil =>
    refine ⟨current, [], list, read, rfl, fun other => ?_⟩
    rw [List.nil_append]
    cases readLines current other <;> rfl
  | cons line above ih =>
    rw [List.cons_append, readLines] at read
    simp only [List.cons_append, readLines]
    cases told : Statement.ofTrimmed (Text.trim line) with
    | nothing =>
      simp only [told] at read
      exact ih read
    | malformed =>
      simp only [told] at read
      cases read
    | header name =>
      simp only [told] at read
      cases named : Heading.ofName? (String.ofList name) with
      | none =>
        simp only [named] at read
        cases read
      | some heading =>
        simp only [named] at read ⊢
        exact ih read
    | assignment key value =>
      simp only [told] at read
      cases known : readSetting current key value with
      | error error =>
        simp only [known] at read
        cases read
      | ok setting =>
        simp only [known] at read ⊢
        cases more : readLines current (above ++ rest) with
        | error error =>
          rw [more] at read
          cases read
        | ok others =>
          rw [more] at read
          cases read
          obtain ⟨later, front, tail, ends, rfl, goes_on⟩ := ih more
          refine ⟨later, setting :: front, tail, ends, rfl, fun other => ?_⟩
          rw [goes_on other]
          cases readLines later other <;> rfl

/-- A line is read by what stands between its blanks, and a blank one says nothing. -/
theorem readLines_own {own : List (List Char)} (same : line = [] ∧ own = [] ∨
    ∃ shown, own = [shown] ∧ Text.trim shown = Text.trim line) :
    readLines current (own ++ below) = readLines current (line :: below) := by
  rcases same with ⟨rfl, rfl⟩ | ⟨shown, rfl, same⟩
  · rfl
  · rw [List.singleton_append, readLines, readLines, same]

/-- An accepted file goes on to be read as far as one of its lines, whatever is put in its place. -/
theorem parse_at (stands : StandsIn line before after)
    (parsed : parse (before ++ line ++ after) = .ok settings) :
    ∃ later below tail, readLines later (line :: below) = .ok tail ∧ ∀ other, '\n' ∉ other →
      (readLines later (other :: below) = .ok tail →
        parse (before ++ other ++ after) = .ok settings) ∧
      ∀ error, readLines later (other :: below) = .error error →
        parse (before ++ other ++ after) = .error error := by
  obtain ⟨below, parts⟩ := stands.lines_eq
  have as_line (other : List Char) (oneLine : '\n' ∉ other) :
      ∃ own, Text.lines (before ++ other ++ after) = Text.lines before ++ (own ++ below) ∧
        ∀ current, readLines current (own ++ below) = readLines current (other :: below) := by
    obtain ⟨own, split, same⟩ := parts other oneLine
    exact ⟨own, by rw [split, List.append_assoc], fun current => readLines_own same⟩
  obtain ⟨own, split, alike⟩ := as_line line stands.oneLine
  cases read : readLines none (Text.lines (before ++ line ++ after)) with
  | error error =>
    simp only [parse, read] at parsed
    cases parsed
  | ok list =>
    have whole := read
    rw [split] at read
    obtain ⟨later, front, tail, ends, rfl, goes_on⟩ := readLines_after read
    rw [alike] at ends
    refine ⟨later, below, tail, ends, fun other oneLine => ?_⟩
    obtain ⟨own', split', alike'⟩ := as_line other oneLine
    have reads : readLines none (Text.lines (before ++ other ++ after)) =
        (readLines later (other :: below)).map (front ++ ·) := by
      rw [split', goes_on, alike']
    constructor
    · intro same
      rw [parse, reads, same]
      rw [parse, whole] at parsed
      exact parsed
    · intro error fails
      rw [parse, reads, fails]
      rfl

end Reading

/-- A comment behind a line that is no header leaves what the lines from there on say. -/
theorem readLines_commented {later : Option Heading} {tail : List Setting}
    (unopened : Heading.openedBy? line = none) (bare : '#' ∉ line) (comment : List Char)
    (read : readLines later (line :: below) = .ok tail) :
    readLines later (commented line comment :: below) = .ok tail := by
  have said := readLines_sound read
  rw [placed, unopened] at said
  have unopened_still {line : List Char} (unbracketed : ∀ inner, ¬ Bracketed line inner)
      (said : Says ((later, line) :: placed later below) tail) :
      readLines later (line :: below) = .ok tail := by
    refine readLines_complete ?_
    rwa [placed, openedBy?_eq_none unbracketed]
  cases said with
  | idle idle more =>
    have still := idle.commented bare comment
    exact unopened_still (fun inner between => between.not_idle still) (.idle still more)
  | assigns assigns more =>
    have still := assigns.commented bare comment
    exact unopened_still (fun inner => still.not_bracketed) (.assigns still more)

/-- No heading has a hash in its name. -/
theorem ofName?_of_hash {name : List Char} (hash : '#' ∈ name) :
    Heading.ofName? (String.ofList name) = none := by
  rw [Option.eq_none_iff_forall_ne_some]
  intro heading named
  rw [ofName?_eq_some_iff.mp named] at hash
  revert hash
  cases heading <;> decide

/-- No key begins with a bracket. -/
theorem readSetting_of_bracket {key : List Char} (opened : key.head? = some '[')
    (current : Option Heading) (value : List Char) :
    readSetting current key value = .error .unknownKey := by
  have no_key : (current.bind fun heading =>
      SettingKey.find? heading (String.ofList key)) = none := by
    rw [Option.eq_none_iff_forall_ne_some]
    intro found known
    obtain ⟨heading, _, known⟩ := Option.bind_eq_some_iff.mp known
    obtain ⟨_, name⟩ := SettingKey.find?_eq_some_iff.mp known
    rw [← String.toList_ofList (l := key), ← name] at opened
    revert opened
    cases found <;> decide
  simp only [readSetting, no_key]

/-- The reader takes a header with a comment behind it for something else. -/
theorem readLines_header (between : Bracketed line inner) (later : Option Heading)
    (below : List (List Char)) (comment : List Char) :
    ∃ error ∈ [SettingsError.invalidSection, .invalidValue, .unknownKey],
      readLines later (commented line comment :: below) = .error error := by
  obtain ⟨gap, _, whole⟩ := Text.trim_commented line comment
  rw [between] at whole
  have opened : (Text.trim (commented line comment)).head? = some '[' := by rw [whole]; rfl
  have hash : '#' ∈ Text.trim (commented line comment) := by rw [whole]; simp
  rw [readLines]
  rcases statement_cases (commented line comment) with
    ⟨idle, _⟩ | ⟨other, enclosed, told⟩ | ⟨_, _, told⟩
  · rcases idle with blank | commented
    · rw [blank] at opened
      cases opened
    · cases opened.symm.trans commented
  · -- The comment ends with a bracket, so all of it belongs to the name.
    have inside : '#' ∈ Text.trim other := by
      rw [enclosed] at hash
      have member : '#' ∈ other := by simpa using hash
      rw [← List.count_pos_iff] at member ⊢
      rwa [Text.count_trim rfl]
    simp only [told, ofName?_of_hash inside]
    exact ⟨_, List.mem_cons_self .., rfl⟩
  · rcases readAssignment_cases (Text.trim (commented line comment)) with
      malformed | ⟨key, value, assigned⟩
    · simp only [told, malformed]
      exact ⟨_, List.mem_cons_of_mem _ (List.mem_cons_self ..), rfl⟩
    · obtain ⟨some_key, _, rest, reads, _⟩ := readAssignment_eq_iff.mp assigned
      have key_opened := (head?_of_keyValue reads some_key).symm.trans opened
      simp only [told, assigned, readSetting_of_bracket key_opened]
      exact ⟨_, by simp, rfl⟩

/-- Behind a line without a hash a comment leaves the settings as they are, unless the line is a
header. Then the file is refused. -/
theorem parse_commented (stands : StandsIn line before after) (bare : '#' ∉ line)
    (oneLine : '\n' ∉ comment) (parsed : parse (before ++ line ++ after) = .ok settings) :
    (parse (before ++ commented line comment ++ after) = .ok settings ↔
      ∀ inner, ¬ Bracketed line inner) ∧
    ((∃ inner, Bracketed line inner) →
      ∃ error ∈ [SettingsError.invalidSection, .invalidValue, .unknownKey],
        parse (before ++ commented line comment ++ after) = .error error) := by
  obtain ⟨later, below, tail, read, goes_on⟩ := parse_at stands parsed
  have one_line : '\n' ∉ commented line comment := by
    simp [commented, stands.oneLine, oneLine]
  obtain ⟨same, fails⟩ := goes_on (commented line comment) one_line
  have refused : (∃ inner, Bracketed line inner) →
      ∃ error ∈ [SettingsError.invalidSection, .invalidValue, .unknownKey],
        parse (before ++ commented line comment ++ after) = .error error := by
    rintro ⟨inner, between⟩
    obtain ⟨error, member, error_there⟩ := readLines_header between later below comment
    exact ⟨error, member, fails error error_there⟩
  refine ⟨⟨?_, ?_⟩, refused⟩
  · intro accepted inner between
    obtain ⟨error, _, error_there⟩ := refused ⟨inner, between⟩
    rw [accepted] at error_there
    cases error_there
  · intro unbracketed
    refine same (readLines_commented ?_ bare comment read)
    exact openedBy?_eq_none unbracketed

/-- A comment with quotes, brackets, an equals sign and another hash, behind a value between
quotes. -/
theorem parse_commented_quoted :
    StandsIn "duplex = \"full\"".toList "[link]\n".toList "\r\ntimeout_ms = 30".toList ∧
      parse ("[link]\n".toList ++ commented "duplex = \"full\"".toList "[\"] = # x]".toList ++
        "\r\ntimeout_ms = 30".toList) = .ok (set {} (.timeout 30)) := by
  have stands : StandsIn "duplex = \"full\"".toList "[link]\n".toList
      "\r\ntimeout_ms = 30".toList :=
    ⟨.inr rfl, by decide, .inr (.inr ⟨_, rfl⟩)⟩
  have parsed : parse ("[link]\n".toList ++ "duplex = \"full\"".toList ++
      "\r\ntimeout_ms = 30".toList) = .ok (set {} (.timeout 30)) := by decide
  have unbracketed : ∀ inner, ¬ Bracketed "duplex = \"full\"".toList inner := by
    intro inner between
    exact absurd (bracketed_iff.mp between).1.1 (by decide)
  exact ⟨stands, (parse_commented stands (by decide) (by decide) parsed).1.mpr unbracketed⟩

/-- A section that is opened with a comment behind its header. -/
theorem header_comment_refused :
    StandsIn "[link]".toList [] "\ntimeout_ms = 30\n".toList ∧ '#' ∉ "[link]".toList ∧
      '\n' ∉ " wires".toList ∧
      parse ([] ++ "[link]".toList ++ "\ntimeout_ms = 30\n".toList) = .ok (set {} (.timeout 30)) ∧
      parse ([] ++ commented "[link]".toList " wires".toList ++ "\ntimeout_ms = 30\n".toList) =
        .error .invalidValue := by
  have stands : StandsIn "[link]".toList [] "\ntimeout_ms = 30\n".toList :=
    ⟨.inl rfl, by decide, .inr (.inl rfl)⟩
  exact ⟨stands, by decide, by decide, by decide, by decide⟩

end Settings
end SplitKeyboard
