import Mathlib.Logic.Function.Basic
import SplitKeyboard.Proofs.Settings.Recognition

/-!
What a settings file means. Of all the values that it assigns to a key the last one counts, and a key
without a value keeps its default. Nothing else of a file that is accepted matters: not where the keys
stand in a section, and not how often a section is opened.
-/
namespace SplitKeyboard

/-- The last value that these settings give a key. -/
def lastOf (list : List Setting) (key : SettingKey) : Option Setting :=
  (list.filter (·.key = key)).getLast?

namespace Settings

/-- The settings with these last values. A check interval that is not given goes with the timeout, if
that is given. -/
def ofLast (last : SettingKey → Option Setting) : Settings where
  link :=
    { line :=
        { speed := match last .speed with
            | some (.speed speed) => speed
            | _ => ({} : Settings).link.line.speed
          duplex := match last .duplex with
            | some (.duplex duplex) => duplex
            | _ => ({} : Settings).link.line.duplex }
      timeout := match last .timeout with
        | some (.timeout ms) => ms
        | _ => ({} : Settings).link.timeout
      checkInterval := match last .checkInterval, last .timeout with
        | some (.checkInterval ms), _ => ms
        | _, some (.timeout ms) => LinkConfig.intervalFor ms
        | _, _ => ({} : Settings).link.checkInterval
      idleTimeout := match last .idleTimeout with
        | some (.idleTimeout ms) => ms
        | _ => ({} : Settings).link.idleTimeout }
  initiatorLevel := match last .initiatorLevel with
    | some (.initiatorLevel high) => high
    | _ => ({} : Settings).initiatorLevel

section LastValues

variable {list rest : List Setting} {last : SettingKey → Option Setting} {setting : Setting}

theorem lastOf_concat : lastOf (list ++ [setting]) =
    Function.update (lastOf list) setting.key (some setting) := by
  funext key
  by_cases same : setting.key = key
  · subst same
    simp [lastOf]
  · simp [lastOf, same, Function.update, Ne.symm same]

/-- A setting takes the place of the last value of its key, as long as no timeout comes after a check
interval. -/
theorem set_ofLast (order : setting.key = .timeout → last .checkInterval = none) :
    (ofLast last).set setting = ofLast (Function.update last setting.key (some setting)) := by
  cases setting with
  | timeout ms =>
    simp [ofLast, set, Setting.key, Function.update, LinkConfig.withTimeout, order rfl]
  | speed | duplex | checkInterval | idleTimeout | initiatorLevel =>
    simp [ofLast, set, Setting.key, Function.update, LinkConfig.withSpeed, LinkConfig.withDuplex]

theorem lastOf_eq_none {key : SettingKey} (absent : ∀ x ∈ list, x.key ≠ key) :
    lastOf list key = none := by
  rw [lastOf, List.getLast?_eq_none_iff, List.filter_eq_nil_iff]
  intro x member
  simpa using absent x member

theorem foldl_set_ofLast (list rest : List Setting)
    (order : ∀ x ∈ rest, x.key = .timeout → ∀ y ∈ list ++ rest, y.key ≠ .checkInterval) :
    rest.foldl set (ofLast (lastOf list)) = ofLast (lastOf (list ++ rest)) := by
  -- What has been applied already grows with each setting, so it is generalised.
  induction rest generalizing list with
  | nil => rw [List.append_nil, List.foldl_nil]
  | cons x rest ih =>
    have alone : x.key = .timeout → lastOf list .checkInterval = none := by
      intro timed
      refine lastOf_eq_none fun y member => ?_
      exact order x (List.mem_cons_self ..) timed y (List.mem_append_left _ member)
    have split : list ++ x :: rest = (list ++ [x]) ++ rest := by
      rw [List.append_assoc, List.singleton_append]
    rw [split] at order ⊢
    rw [List.foldl_cons, set_ofLast alone, ← lastOf_concat]
    exact ih _ fun y member => order y (List.mem_cons_of_mem _ member)

theorem isCheckInterval_iff : isCheckInterval setting = true ↔ setting.key = .checkInterval := by
  cases setting <;> simp [isCheckInterval, Setting.key]

/-- The reader puts the check intervals last, which changes no last value. -/
theorem lastOf_order : lastOf (list.filter (!isCheckInterval ·) ++ list.filter isCheckInterval) =
    lastOf list := by
  funext key
  -- Of the settings of one key, either all are check intervals or none is.
  have alike (x : Setting) (mine : x.key = key) :
      isCheckInterval x = decide (key = .checkInterval) := by
    subst mine
    cases x <;> rfl
  have last : list.filter (fun x => decide (x.key = key) && isCheckInterval x) =
      list.filter (fun x => decide (x.key = key) && decide (key = .checkInterval)) :=
    List.filter_congr fun x _ => by by_cases mine : x.key = key <;> simp [mine, alike]
  have first : list.filter (fun x => decide (x.key = key) && !isCheckInterval x) =
      list.filter (fun x => decide (x.key = key) && !decide (key = .checkInterval)) :=
    List.filter_congr fun x _ => by by_cases mine : x.key = key <;> simp [mine, alike]
  rw [lastOf, lastOf, List.filter_append, List.filter_filter, List.filter_filter, first, last]
  by_cases interval : key = .checkInterval <;> simp [interval]

theorem ofList_eq_ofLast : ofList list = ofLast (lastOf list) := by
  have others : ∀ x ∈ list.filter (!isCheckInterval ·), x.key ≠ .checkInterval := by
    intro x member interval
    have other := (List.mem_filter.mp member).2
    rw [isCheckInterval_iff.mpr interval] at other
    cases other
  have intervals : ∀ x ∈ list.filter isCheckInterval, x.key ≠ .timeout := by
    intro x member timed
    have interval := isCheckInterval_iff.mp (List.mem_filter.mp member).2
    cases timed.symm.trans interval
  -- No timeout is applied once a check interval has been: first come all others, then the intervals.
  have first : (list.filter (!isCheckInterval ·)).foldl set {} =
      ofLast (lastOf (list.filter (!isCheckInterval ·))) :=
    foldl_set_ofLast [] _ fun _ _ _ => others
  have second := foldl_set_ofLast (list.filter (!isCheckInterval ·)) (list.filter isCheckInterval)
    fun x member timed => absurd timed (intervals x member)
  rw [ofList, List.foldl_append, first, second, lastOf_order]

end LastValues

section Parse

variable {text : List Char} {list : List Setting} {settings : Settings}

/-- A file in the notation is judged by its last values alone. -/
theorem parse_said (said : Says (placed none (Text.lines text)) list) :
    parse text = match (ofLast (lastOf list)).link.validate with
      | .error cause => .error (.invalid cause)
      | .ok () => .ok (ofLast (lastOf list)) := by
  unfold parse
  rw [readLines_eq_ok_iff.mpr said]
  cases valid : (ofLast (lastOf list)).link.validate <;> simp only [ofList_eq_ofLast, valid]

theorem parse_eq_ok_iff : parse text = .ok settings ↔
    ∃ list, Says (placed none (Text.lines text)) list ∧ settings = ofLast (lastOf list) ∧
      settings.link.timeout ≠ 0 ∧ settings.link.idleTimeout ≠ 0 := by
  constructor
  · intro parsed
    cases read : readLines none (Text.lines text) with
    | error error =>
      simp only [parse, read] at parsed
      cases parsed
    | ok list =>
      have said := readLines_eq_ok_iff.mp read
      rw [parse_said said] at parsed
      split at parsed
      · cases parsed
      · next valid =>
        cases parsed
        exact ⟨list, said, rfl, LinkConfig.validate_eq_ok_iff.mp valid⟩
  · rintro ⟨list, said, rfl, waits⟩
    rw [parse_said said, LinkConfig.validate_eq_ok_iff.mpr waits]

end Parse

end Settings

/-- The line assigns something to the key, whatever it is, in the section of the key. -/
def PlacedLine.Sets (key : SettingKey) (line : PlacedLine) : Prop :=
  line.1 = some key.heading ∧ ∃ rest, KeyValue line.2 key.name.toList rest

instance (key : SettingKey) : DecidablePred (PlacedLine.Sets key) := fun line =>
  decidable_of_iff (line.1 = some key.heading ∧ '=' ∈ Text.trim line.2 ∧
      Text.trim ((Text.trim line.2).takeWhile (· ≠ '=')) = key.name.toList) <| by
    simp only [PlacedLine.Sets, Settings.keyValue_iff, exists_and_left, exists_eq', and_true]

/-- The same lines in the same sections, where those of each key stand in the same order. -/
structure Rearranged (lines more : List PlacedLine) : Prop where
  same : lines.Perm more
  order (key : SettingKey) : lines.filter (PlacedLine.Sets key) = more.filter (PlacedLine.Sets key)

/-- The section that is open after these lines. -/
def sectionAfter (current : Option Heading) (lines : List (List Char)) : Option Heading :=
  lines.foldl (fun current line => (Heading.openedBy? line).or current) current

section Rearranged

variable {lines more : List PlacedLine} {current : Option Heading}
  {before block block' after : List (List Char)}

theorem Rearranged.refl (lines : List PlacedLine) : Rearranged lines lines :=
  ⟨.refl _, fun _ => rfl⟩

theorem Rearranged.symm (rearranged : Rearranged lines more) : Rearranged more lines :=
  ⟨rearranged.same.symm, fun key => (rearranged.order key).symm⟩

theorem Rearranged.around (rearranged : Rearranged lines more) (front back : List PlacedLine) :
    Rearranged (front ++ lines ++ back) (front ++ more ++ back) := by
  constructor
  · exact (rearranged.same.append_left front).append_right back
  · intro key
    simp only [List.filter_append, rearranged.order key]

theorem placed_append (current : Option Heading) (first rest : List (List Char)) :
    placed current (first ++ rest) =
      placed current first ++ placed (sectionAfter current first) rest := by
  induction first generalizing current with
  | nil => rfl
  | cons line first ih =>
    rw [List.cons_append, placed, placed, sectionAfter, List.foldl_cons]
    cases Heading.openedBy? line with
    | none => exact congrArg (List.cons _) (ih current)
    | some heading => exact ih (some heading)

/-- Without a header all lines stand in the section that is open. -/
theorem placed_of_unopened (current : Option Heading)
    (unopened : ∀ line ∈ block, Heading.openedBy? line = none) :
    placed current block = block.map (Prod.mk current) ∧ sectionAfter current block = current := by
  induction block with
  | nil => exact ⟨rfl, rfl⟩
  | cons line block ih =>
    obtain ⟨first, others⟩ := List.forall_mem_cons.mp unopened
    obtain ⟨lines, section_kept⟩ := ih others
    rw [placed, sectionAfter, List.foldl_cons, first, List.map_cons]
    exact ⟨congrArg (List.cons _) lines, section_kept⟩

/-- No two of these lines set the same key. -/
def KeysApart (block : List (List Char)) : Prop :=
  block.Pairwise fun x y => ∀ key rest rest', KeyValue x key rest → ¬ KeyValue y key rest'

/-- Of lines that set different keys, one at most sets a given key, so their order is free. -/
theorem Rearranged.of_perm (same : block.Perm block') (apart : KeysApart block) :
    Rearranged (block.map (Prod.mk current)) (block'.map (Prod.mk current)) := by
  refine ⟨same.map _, fun key => ?_⟩
  have setting := (same.map (Prod.mk current)).filter (PlacedLine.Sets key)
  have sets : ∀ line ∈ (block.map (Prod.mk current)).filter (PlacedLine.Sets key),
      PlacedLine.Sets key line := by
    intro line member
    exact of_decide_eq_true (List.mem_filter.mp member).2
  have distinct : ((block.map (Prod.mk current)).filter (PlacedLine.Sets key)).Pairwise
      fun x y => ∀ key rest rest', KeyValue x.2 key rest → ¬ KeyValue y.2 key rest' := by
    refine List.Pairwise.sublist List.filter_sublist ?_
    rw [List.pairwise_map]
    exact apart
  generalize (block.map (Prod.mk current)).filter (PlacedLine.Sets key) = mine at setting sets distinct
  match mine with
  | [] => exact setting.nil_eq
  | [x] => exact List.singleton_perm.mp setting
  | x :: y :: _ =>
    obtain ⟨_, rest, reads⟩ := sets x (by simp)
    obtain ⟨_, rest', reads'⟩ := sets y (by simp)
    have differ := List.rel_of_pairwise_cons distinct (List.mem_cons_self ..)
    exact absurd reads' (differ _ _ _ reads)

/-- Lines of one section that set different keys may change places. -/
theorem Rearranged.of_block (same : block.Perm block') (apart : KeysApart block)
    (unopened : ∀ line ∈ block, Heading.openedBy? line = none) :
    Rearranged (placed current (before ++ block ++ after))
      (placed current (before ++ block' ++ after)) := by
  have unopened' : ∀ line ∈ block', Heading.openedBy? line = none :=
    fun line member => unopened line (same.mem_iff.mpr member)
  obtain ⟨lines, kept⟩ := placed_of_unopened (sectionAfter current before) unopened
  obtain ⟨lines', kept'⟩ := placed_of_unopened (sectionAfter current before) unopened'
  have split (part : List (List Char)) : placed current (before ++ part ++ after) =
      placed current before ++ placed (sectionAfter current before) part ++
        placed (sectionAfter (sectionAfter current before) part) after := by
    rw [List.append_assoc, placed_append, placed_append, List.append_assoc]
  rw [split, split, lines, lines', kept, kept']
  exact (Rearranged.of_perm same apart).around _ _

/-- A section may be opened again where it is open. -/
theorem placed_reopened {heading : Heading} {line : List Char}
    (open_there : sectionAfter current before = some heading) (opens : heading.OpenedBy line) :
    placed current (before ++ line :: after) = placed current (before ++ after) := by
  rw [placed_append, placed_append, open_there, placed, openedBy?_of_openedBy opens]

end Rearranged

section Says

variable {lines more : List PlacedLine} {list other : List Setting} {line key rest : List Char}
  {heading : Heading} {first second : Setting}

theorem KeyValue.unique {key' rest' : List Char} (reads : KeyValue line key rest)
    (also : KeyValue line key' rest') : key = key' ∧ rest = rest' := by
  obtain ⟨_, name, part⟩ := Settings.keyValue_iff.mp reads
  obtain ⟨_, name', part'⟩ := Settings.keyValue_iff.mp also
  exact ⟨name.symm.trans name', part.symm.trans part'⟩

theorem Assigns.unique (assigns : Assigns heading line first)
    (also : Assigns heading line second) : first = second := by
  obtain ⟨known, rest, value, reads, leaves, written⟩ := assigns
  obtain ⟨known', rest', value', reads', leaves', written'⟩ := also
  obtain ⟨names, rfl⟩ := reads.unique reads'
  have keys := key_injective (known.trans known'.symm) (String.toList_inj.mp names)
  have values := (Settings.leaves_iff (Text.trim_trim _)).mp leaves
  rw [(Settings.leaves_iff (Text.trim_trim _)).mp leaves'] at values
  subst values
  have read := Settings.readValue_complete written
  rw [keys, Settings.readValue_complete written'] at read
  exact (Except.ok.inj read).symm

theorem Says.unique (said : Says lines list) (also : Says lines other) : list = other := by
  induction said generalizing other with
  | nothing =>
    cases also
    rfl
  | idle idle _ ih =>
    cases also with
    | idle _ more => exact ih more
    | assigns assigns _ => exact absurd idle assigns.not_idle
  | assigns assigns _ ih =>
    cases also with
    | idle idle _ => exact absurd idle assigns.not_idle
    | assigns again more => rw [assigns.unique again, ih more]

/-- The lines that set a key say the settings of that key. -/
theorem Says.filter (said : Says lines list) (key : SettingKey) :
    Says (lines.filter (PlacedLine.Sets key)) (list.filter (·.key = key)) := by
  induction said with
  | nothing => exact .nothing
  | @idle current line rest list idle more ih =>
    rw [List.filter_cons]
    split
    · exact .idle idle ih
    · exact ih
  | @assigns heading line rest setting list assigns more ih =>
    obtain ⟨rfl, parts, value, reads, _⟩ := id assigns
    have sets : PlacedLine.Sets key (some setting.key.heading, line) ↔ setting.key = key := by
      constructor
      · rintro ⟨here, parts', reads'⟩
        exact key_injective (Option.some.inj here) (String.toList_inj.mp (reads.unique reads').1)
      · rintro rfl
        exact ⟨rfl, parts, reads⟩
    rw [List.filter_cons, List.filter_cons]
    by_cases mine : setting.key = key
    · rw [if_pos (decide_eq_true (sets.mpr mine)), if_pos (decide_eq_true mine)]
      exact .assigns assigns ih
    · rw [if_neg (by simpa using mt sets.mp mine), if_neg (by simpa using mine)]
      exact ih

/-- Lines say something if each of them does. -/
theorem exists_says_iff : (∃ list, Says lines list) ↔ ∀ line ∈ lines,
    Idle line.2 ∨ ∃ heading setting, line.1 = some heading ∧ Assigns heading line.2 setting := by
  constructor
  · rintro ⟨list, said⟩
    induction said with
    | nothing => exact List.forall_mem_nil _
    | idle idle _ ih => exact List.forall_mem_cons.mpr ⟨.inl idle, ih⟩
    | assigns assigns _ ih => exact List.forall_mem_cons.mpr ⟨.inr ⟨_, _, rfl, assigns⟩, ih⟩
  · intro each
    induction lines with
    | nil => exact ⟨[], .nothing⟩
    | cons line lines ih =>
      obtain ⟨first, others⟩ := List.forall_mem_cons.mp each
      obtain ⟨list, said⟩ := ih others
      obtain ⟨current, line⟩ := line
      rcases first with idle | ⟨heading, setting, rfl, assigns⟩
      · exact ⟨list, .idle idle said⟩
      · exact ⟨setting :: list, .assigns assigns said⟩

/-- The same lines in another order, in which those of each key keep theirs, give each key the same
last value. -/
theorem Says.rearranged (said : Says lines list) (rearranged : Rearranged lines more) :
    ∃ other, Says more other ∧ lastOf other = lastOf list := by
  obtain ⟨same, order⟩ := rearranged
  have each := exists_says_iff.mp ⟨list, said⟩
  obtain ⟨other, also⟩ := exists_says_iff.mpr fun line member => each line (same.mem_iff.mpr member)
  refine ⟨other, also, ?_⟩
  funext key
  have mine := said.filter key
  rw [order key] at mine
  rw [lastOf, lastOf, mine.unique (also.filter key)]

end Says

namespace Settings

theorem parse_rearranged {text other : List Char}
    (rearranged : Rearranged (placed none (Text.lines text)) (placed none (Text.lines other)))
    (settings : Settings) : parse text = .ok settings ↔ parse other = .ok settings := by
  have forward {text other : List Char}
      (rearranged : Rearranged (placed none (Text.lines text)) (placed none (Text.lines other)))
      (parsed : parse text = .ok settings) : parse other = .ok settings := by
    obtain ⟨list, said, rfl, waits⟩ := parse_eq_ok_iff.mp parsed
    obtain ⟨list', also, last⟩ := said.rearranged rearranged
    exact parse_eq_ok_iff.mpr ⟨list', also, by rw [last], waits⟩
  exact ⟨forward rearranged, forward rearranged.symm⟩

/-- A settings file is accepted if each of its lines is in the notation and no wait of the result has
no length; the result is its last values. So two files with the same last values are judged alike. A
file may be rearranged as long as its lines stay in their sections and those of each key in their
order: lines of a section that set different keys may change places, and a section may be opened
again. -/
theorem parse_meaning (text : List Char) :
    (∀ settings, parse text = .ok settings ↔
      ∃ list, Says (placed none (Text.lines text)) list ∧ settings = ofLast (lastOf list) ∧
        settings.link.timeout ≠ 0 ∧ settings.link.idleTimeout ≠ 0) ∧
    (∀ other list list', Says (placed none (Text.lines text)) list →
      Says (placed none (Text.lines other)) list' → lastOf list = lastOf list' →
      parse text = parse other) ∧
    (∀ other, Rearranged (placed none (Text.lines text)) (placed none (Text.lines other)) →
      ∀ settings, parse text = .ok settings ↔ parse other = .ok settings) ∧
    (∀ other before block block' after, Text.lines text = before ++ block ++ after →
      Text.lines other = before ++ block' ++ after → block.Perm block' → KeysApart block →
      (∀ line ∈ block, Heading.openedBy? line = none) →
      ∀ settings, parse text = .ok settings ↔ parse other = .ok settings) ∧
    ∀ other before line after (heading : Heading), Text.lines text = before ++ after →
      Text.lines other = before ++ line :: after → sectionAfter none before = some heading →
      heading.OpenedBy line →
      ∀ settings, parse text = .ok settings ↔ parse other = .ok settings := by
  refine ⟨fun settings => parse_eq_ok_iff, ?_, fun other => parse_rearranged, ?_, ?_⟩
  · intro other list list' said also last
    rw [parse_said said, parse_said also, last]
  · intro other before block block' after here there same apart unopened
    apply parse_rearranged
    rw [here, there]
    exact .of_block same apart unopened
  · intro other before line after heading here there open_there opens
    apply parse_rearranged
    rw [here, there, placed_reopened open_there opens]
    exact .refl _

/-- Two keys change places, or their section is opened again between them. -/
theorem parse_meaning_reopened :
    let text := "[link]\nspeed = 19_200\ntimeout_ms = 30".toList
    let moved := "[link]\ntimeout_ms = 30\nspeed = 19_200".toList
    let reopened := "[link]\nspeed = 19_200\n[link]\ntimeout_ms = 30".toList
    let list : List Setting := [.speed .baud19200, .timeout 30]
    let list' : List Setting := [.timeout 30, .speed .baud19200]
    (Says (placed none (Text.lines text)) list ∧ Says (placed none (Text.lines moved)) list' ∧
      lastOf list = lastOf list' ∧ parse text = parse moved) ∧
    (Rearranged (placed none (Text.lines text)) (placed none (Text.lines moved)) ∧
      ∀ settings, parse text = .ok settings ↔ parse moved = .ok settings) ∧
    KeysApart ["speed = 19_200".toList, "timeout_ms = 30".toList] ∧
    sectionAfter none ["[link]".toList, "speed = 19_200".toList] = some .link ∧
    Heading.link.OpenedBy "[link]".toList ∧
    parse text = .ok (ofLast (lastOf list)) ∧ parse moved = .ok (ofLast (lastOf list)) ∧
    parse reopened = .ok (ofLast (lastOf list)) := by
  intro text moved reopened list list'
  have lines : Text.lines "[link]\nspeed = 19_200\ntimeout_ms = 30".toList =
      ["[link]".toList] ++ ["speed = 19_200".toList, "timeout_ms = 30".toList] ++ [] := by decide
  have lines_moved : Text.lines "[link]\ntimeout_ms = 30\nspeed = 19_200".toList =
      ["[link]".toList] ++ ["timeout_ms = 30".toList, "speed = 19_200".toList] ++ [] := by decide
  have lines_reopened : Text.lines "[link]\nspeed = 19_200\n[link]\ntimeout_ms = 30".toList =
      ["[link]".toList, "speed = 19_200".toList] ++ "[link]".toList :: ["timeout_ms = 30".toList] := by
    decide
  have said : Says (placed none (Text.lines "[link]\nspeed = 19_200\ntimeout_ms = 30".toList))
      [.speed .baud19200, .timeout 30] := by
    apply readLines_eq_ok_iff.mp
    decide
  have said' : Says (placed none (Text.lines "[link]\ntimeout_ms = 30\nspeed = 19_200".toList))
      [.timeout 30, .speed .baud19200] := by
    apply readLines_eq_ok_iff.mp
    decide
  have lasts : lastOf list = lastOf list' := by
    funext key
    cases key <;> rfl
  have apart : KeysApart ["speed = 19_200".toList, "timeout_ms = 30".toList] := by
    refine .cons ?_ (List.pairwise_singleton _ _)
    intro other member key rest rest' reads reads'
    cases List.mem_singleton.mp member
    have names := (keyValue_iff.mp reads).2.1.trans (keyValue_iff.mp reads').2.1.symm
    exact absurd names (by decide)
  have unopened : ∀ line ∈ ["speed = 19_200".toList, "timeout_ms = 30".toList],
      Heading.openedBy? line = none := by decide
  have open_there : sectionAfter none ["[link]".toList, "speed = 19_200".toList] = some .link := by
    decide
  have opens : Heading.link.OpenedBy "[link]".toList := by decide
  have swapped := List.Perm.swap "timeout_ms = 30".toList "speed = 19_200".toList []
  have rearranged : Rearranged
      (placed none (Text.lines "[link]\nspeed = 19_200\ntimeout_ms = 30".toList))
      (placed none (Text.lines "[link]\ntimeout_ms = 30\nspeed = 19_200".toList)) := by
    rw [lines, lines_moved]
    exact .of_block swapped apart unopened
  obtain ⟨accepted, alike, free, blocks, again⟩ :=
    parse_meaning "[link]\nspeed = 19_200\ntimeout_ms = 30".toList
  have parsed : parse text = .ok (ofLast (lastOf list)) :=
    (accepted _).mpr ⟨list, said, rfl, by decide, by decide⟩
  refine ⟨⟨said, said', lasts, alike _ _ _ said said' lasts⟩, ⟨rearranged, free _ rearranged⟩,
    apart, open_there, opens, parsed, ?_, ?_⟩
  · exact (blocks _ _ _ _ _ lines lines_moved swapped apart unopened _).mp parsed
  · exact (again _ _ _ ["timeout_ms = 30".toList] _ lines lines_reopened open_there opens _).mp parsed

end Settings
end SplitKeyboard
