import Mathlib.Data.List.Induction
import SplitKeyboard.Proofs.Settings.Acceptance
import SplitKeyboard.Proofs.Settings.Reading

/-!
The two checkers of settings files agree. A file about which there is nothing to complain when the
firmware is built is read on the keyboard, in whichever way it is written down, and gives the settings
that it stands for.
-/
namespace SplitKeyboard

variable {sections entries ordered : List SettingsEntry} {key : SettingKey} {value : SettingsValue}
  {list : List Setting}

section Lines

/-- A line that its text gives back as it is. -/
abbrev Separate (line : List Char) : Prop := '\n' ∉ line ∧ line.getLast? ≠ some '\r'

theorem separate_header (heading : Heading) : Separate ('[' :: heading.name.toList ++ [']']) := by
  cases heading <;> decide

theorem separate_assignment (key : SettingKey) {text : List Char} (plain : Text.Plain text) :
    Separate (key.name.toList ++ " = ".toList ++ text) := by
  have line := (Settings.plain_name key).toTrimmed.append " = ".toList plain.toTrimmed
  constructor
  · rw [List.mem_append, List.mem_append]
    rintro ((name | middle) | inside)
    · exact (Settings.plain_name key).oneLine name
    · exact absurd middle (by decide)
    · exact plain.oneLine inside
  · intro last
    exact absurd (line.ends _ last) (by decide)

/-- A line with a key gives the setting that is told there. -/
theorem readLines_key {setting : Setting} {entry : SettingsEntry} {line : List Char}
    (tells : entry.Tells setting.key.heading setting) (shows : entry.ShowsKey line)
    (rest : List (List Char)) :
    Separate line ∧ Settings.readLines (some setting.key.heading) (line :: rest) =
      (Settings.readLines (some setting.key.heading) rest).map (setting :: ·) := by
  obtain ⟨text, shown, rfl⟩ := shows
  obtain ⟨plain, read⟩ := Settings.readValue_told tells.told shown
  have named : SettingKey.find? setting.key.heading (String.ofList setting.key.name.toList) =
      some setting.key := by
    rw [String.ofList_toList, SettingKey.find?_name]
  rw [← tells.name]
  refine ⟨separate_assignment setting.key plain, ?_⟩
  rw [Settings.readLines, Settings.statement_assignment setting.key plain]
  simp only [Settings.readSetting, Option.bind_some, named, read]

/-- The settings that were read below a heading where these entries stand. -/
structure ReadUnder (heading : Heading) (entries : List SettingsEntry) (list : List Setting) :
    Prop where
  given : ∀ setting ∈ list, ∃ entry ∈ entries, entry.Tells heading setting
  told : ∀ entry ∈ entries, ∃ setting ∈ list, entry.Tells heading setting

theorem ReadUnder.cons {heading : Heading} {entry : SettingsEntry} {setting : Setting}
    (tells : entry.Tells heading setting) (read : ReadUnder heading entries list) :
    ReadUnder heading (entry :: entries) (setting :: list) := by
  constructor
  · refine List.forall_mem_cons.mpr ⟨⟨entry, List.mem_cons_self .., tells⟩, ?_⟩
    intro other member
    obtain ⟨one, inside, told⟩ := read.given other member
    exact ⟨one, List.mem_cons_of_mem _ inside, told⟩
  · refine List.forall_mem_cons.mpr ⟨⟨setting, List.mem_cons_self .., tells⟩, ?_⟩
    intro one inside
    obtain ⟨other, member, told⟩ := read.told one inside
    exact ⟨other, List.mem_cons_of_mem _ member, told⟩

/-- The lines of a section below its header. -/
theorem readLines_keys {heading : Heading} {shown : List (List Char)}
    (keys : List.Forall₂ SettingsEntry.ShowsKey entries shown)
    (tell : ∀ one ∈ entries, ∃ setting, one.Tells heading setting) :
    ∃ list, ReadUnder heading entries list ∧ (∀ line ∈ shown, Separate line) ∧
      ∀ rest, Settings.readLines (some heading) (shown ++ rest) =
        (Settings.readLines (some heading) rest).map (list ++ ·) := by
  induction keys with
  | nil =>
    refine ⟨[], ⟨List.forall_mem_nil _, List.forall_mem_nil _⟩, List.forall_mem_nil _, ?_⟩
    intro rest
    rw [List.nil_append]
    cases Settings.readLines (some heading) rest <;> rfl
  | @cons entry line entries shown first _ ih =>
    obtain ⟨setting, tells⟩ := tell entry (List.mem_cons_self ..)
    obtain ⟨list, others, separate, read⟩ :=
      ih fun one member => tell one (List.mem_cons_of_mem _ member)
    obtain rfl := tells.heading
    refine ⟨setting :: list, others.cons tells, ?_, ?_⟩
    · exact List.forall_mem_cons.mpr ⟨(readLines_key tells first []).1, separate⟩
    · intro rest
      rw [List.cons_append, (readLines_key tells first _).2, read]
      cases Settings.readLines (some setting.key.heading) rest <;> rfl

end Lines

/-- The settings that were read of a file with these sections. -/
structure ReadFrom (sections : List SettingsEntry) (list : List Setting) : Prop where
  given : ∀ setting ∈ list, ∃ value, Gives sections setting.key value ∧ setting.ToldBy value
  told : ∀ key value, Gives sections key value →
    ∃ setting ∈ list, setting.key = key ∧ setting.ToldBy value

theorem Gives.mono (more : ∀ entry ∈ sections, entry ∈ ordered) (gives : Gives sections key value) :
    Gives ordered key value := by
  obtain ⟨entries, placed, given⟩ := gives
  exact ⟨entries, more _ placed, given⟩

theorem ReadFrom.perm (read : ReadFrom ordered list) (same : ordered.Perm sections) :
    ReadFrom sections list := by
  constructor
  · intro setting member
    obtain ⟨value, gives, told⟩ := read.given setting member
    exact ⟨value, gives.mono fun _ => same.mem_iff.mp, told⟩
  · intro key value gives
    exact read.told key value (gives.mono fun _ => same.mem_iff.mpr)

/-- One section more. -/
theorem ReadFrom.cons {heading : Heading} {first : List Setting} (same : ordered.Perm entries)
    (front : ReadUnder heading ordered first) (read : ReadFrom sections list) :
    ReadFrom ((heading.name, .table entries) :: sections) (first ++ list) := by
  constructor
  · intro setting member
    rcases List.mem_append.mp member with member | later
    · obtain ⟨entry, inside, tells⟩ := front.given setting member
      obtain rfl := tells.heading
      refine ⟨entry.2, ⟨entries, List.mem_cons_self .., ?_⟩, tells.told⟩
      rw [tells.name]
      exact same.mem_iff.mp inside
    · obtain ⟨value, gives, told⟩ := read.given setting later
      exact ⟨value, gives.mono fun _ => List.mem_cons_of_mem _, told⟩
  · rintro key value ⟨others, placed, given⟩
    rcases List.mem_cons.mp placed with this_one | later
    · obtain ⟨names, parts⟩ := Prod.mk.inj this_one
      cases parts
      obtain ⟨setting, member, tells⟩ := front.told _ (same.mem_iff.mpr given)
      have headings := tells.heading.trans (name_injective names).symm
      exact ⟨setting, List.mem_append_left _ member, key_injective headings tells.name, tells.told⟩
    · obtain ⟨setting, member, told⟩ := read.told key value ⟨others, later, given⟩
      exact ⟨setting, List.mem_append_right _ member, told⟩

/-- The lines of all sections are read to their end, wherever they stand. -/
theorem readLines_sections {parts : List (List (List Char))}
    (shows : List.Forall₂ SettingsEntry.ShowsSection sections parts)
    (accepted : ∀ entry ∈ sections, entry.Accepted) :
    ∃ list, ReadFrom sections list ∧ (∀ line ∈ parts.flatten, Separate line) ∧
      ∀ heading, Settings.readLines heading parts.flatten = .ok list := by
  induction shows with
  | nil =>
    refine ⟨[], ⟨List.forall_mem_nil _, ?_⟩, List.forall_mem_nil _, fun _ => rfl⟩
    rintro key value ⟨entries, placed, _⟩
    exact absurd placed List.not_mem_nil
  | @cons entry part sections parts first _ ih =>
    obtain ⟨list, read, separate, all⟩ :=
      ih fun other member => accepted other (List.mem_cons_of_mem _ member)
    obtain ⟨heading, entries, rfl, tell⟩ := accepted entry (List.mem_cons_self ..)
    obtain ⟨ordered, shown, same, keys, rfl⟩ := first
    obtain ⟨front, under, lines, below⟩ :=
      readLines_keys keys fun one member => tell one (same.mem_iff.mp member)
    refine ⟨front ++ list, read.cons same under, ?_, ?_⟩
    · rw [List.flatten_cons, List.cons_append]
      refine List.forall_mem_cons.mpr ⟨separate_header heading, fun line member => ?_⟩
      exact (List.mem_append.mp member).elim (lines line) (separate line)
    · intro before
      rw [List.flatten_cons, List.cons_append, Settings.readLines, Settings.statement_header]
      simp only [String.ofList_toList, ofName?_name, below, all]
      rfl

section Order

/-- What the settings of other keys leave alone comes from the settings of one key. -/
theorem foldl_keeps {β : Type} (get : Settings → β) (settings : Settings)
    (keeps : ∀ x ∈ list, ∀ s : Settings, get (s.set x) = get s) :
    get (list.foldl Settings.set settings) = get settings := by
  induction list generalizing settings with
  | nil => rfl
  | cons x list ih =>
    obtain ⟨first, others⟩ := List.forall_mem_cons.mp keeps
    rw [List.foldl_cons, ih _ others, first]

theorem foldl_sets {β : Type} (get : Settings → β) {result : β} {x : Setting}
    (settings : Settings) (member : x ∈ list)
    (sets : ∀ s : Settings, get (s.set x) = result)
    (others : ∀ y ∈ list, y ≠ x → ∀ s : Settings, get (s.set y) = get s) :
    get (list.foldl Settings.set settings) = result := by
  induction list using List.reverseRecOn with
  | nil => exact absurd member List.not_mem_nil
  | append_singleton list y ih =>
    rw [List.foldl_concat]
    by_cases same : y = x
    · rw [same, sets]
    · rw [others y (List.mem_append_right _ (List.mem_singleton_self y)) same]
      have earlier : x ∈ list := by
        rcases List.mem_append.mp member with earlier | last
        · exact earlier
        · exact absurd (List.mem_singleton.mp last).symm same
      exact ih earlier fun z inside => others z (List.mem_append_left _ inside)

theorem mem_order {x : Setting} :
    x ∈ list.filter (!Settings.isCheckInterval ·) ++ list.filter Settings.isCheckInterval ↔
      x ∈ list := by
  rw [List.mem_append, List.mem_filter, List.mem_filter, ← and_or_left]
  cases Settings.isCheckInterval x <;> simp

end Order

namespace ReadFrom

variable {β : Type} {x y : Setting} (distinct : DistinctNames sections)
  (read : ReadFrom sections list)
include read

theorem key_ne (absent : ∀ value, ¬ Gives sections key value) (member : x ∈ list) :
    x.key ≠ key := by
  rintro rfl
  obtain ⟨value, gives, _⟩ := read.given x member
  exact absent value gives

include distinct

theorem only (first : x ∈ list) (second : y ∈ list) (same : x.key = y.key) : x = y := by
  obtain ⟨value, gives, told⟩ := read.given x first
  obtain ⟨again, gives_again, told_again⟩ := read.given y second
  rw [← same] at gives_again
  cases gives.unique distinct gives_again
  exact told.unique told_again same

theorem key_ne_of_ne (member : x ∈ list) (inside : y ∈ list) (other : y ≠ x) : y.key ≠ x.key :=
  fun same => other (read.only distinct inside member same)

/-- Something that one key alone has a say in. -/
theorem decides (get : Settings → β) (key : SettingKey) (shown : β → SettingsValue → Prop)
    (others : ∀ y : Setting, y.key ≠ key → ∀ s : Settings, get (s.set y) = get s)
    (sets : ∀ (x : Setting) value, x.key = key → x.ToldBy value →
      ∃ result, shown result value ∧ ∀ s : Settings, get (s.set x) = result) :
    Decides sections key (shown (get (Settings.ofList list))) (get (Settings.ofList list) = get {}) := by
  constructor
  · intro value gives
    obtain ⟨x, member, rfl, told⟩ := read.told key value gives
    obtain ⟨result, shows, sets⟩ := sets x value rfl told
    have set : get (Settings.ofList list) = result := by
      refine foldl_sets get {} (mem_order.mpr member) sets fun y inside other => others y ?_
      exact read.key_ne_of_ne distinct member (mem_order.mp inside) other
    rwa [set]
  · intro absent
    refine foldl_keeps get {} fun x member => others x ?_
    exact read.key_ne absent (mem_order.mp member)

/-- An interval that is given is the last to be set. -/
theorem ofList_checkInterval {ms : UInt32} (member : .checkInterval ms ∈ list) :
    (Settings.ofList list).link.checkInterval = ms := by
  rw [Settings.ofList, List.foldl_append]
  have inside : .checkInterval ms ∈ list.filter Settings.isCheckInterval :=
    List.mem_filter.mpr ⟨member, rfl⟩
  refine foldl_sets (fun s => s.link.checkInterval) _ inside (fun _ => rfl) ?_
  intro y also other
  obtain ⟨member_y, interval⟩ := List.mem_filter.mp also
  cases y <;> cases interval
  exact absurd (read.only distinct member_y member rfl) other

/-- Without one it goes with the timeout. -/
theorem interval_decides (absent : ∀ value, ¬ Gives sections .checkInterval value) :
    Decides sections .timeout
      (fun value => ∃ ms : Nat, value = .integer ms ∧
        (Settings.ofList list).link.checkInterval.toNat = min (5 * ms) (UInt32.size - 1))
      ((Settings.ofList list).link.checkInterval = ({} : Settings).link.checkInterval) := by
  have others : ∀ y ∈ list, y.key ≠ .timeout → ∀ s : Settings,
      (s.set y).link.checkInterval = s.link.checkInterval := by
    intro y inside other s
    have missing := read.key_ne absent inside
    cases y <;> first | rfl | exact absurd rfl other | exact absurd rfl missing
  constructor
  · intro value gives
    obtain ⟨x, member, same, told⟩ := read.told _ _ gives
    cases told <;> cases same
    next ms waits =>
    refine ⟨ms.toNat, rfl, ?_⟩
    have set : (Settings.ofList list).link.checkInterval = LinkConfig.intervalFor ms := by
      refine foldl_sets (fun s => s.link.checkInterval) {} (mem_order.mpr member)
        (fun _ => rfl) fun y inside other => others y (mem_order.mp inside) ?_
      exact read.key_ne_of_ne distinct member (mem_order.mp inside) other
    have small : min (5 * ms.toNat) (UInt32.size - 1) < UInt32.size := by
      have positive : 0 < UInt32.size := by decide
      omega
    rw [set]
    exact UInt32.toNat_ofNat_of_lt' small
  · intro missing
    refine foldl_keeps (fun s => s.link.checkInterval) {} fun x member => ?_
    exact others x (mem_order.mp member) (read.key_ne missing (mem_order.mp member))

theorem timeout_decides : Decides sections .timeout
    (fun value => value = .integer (Settings.ofList list).link.timeout.toNat ∧
      (Settings.ofList list).link.timeout ≠ 0)
    ((Settings.ofList list).link.timeout = ({} : Settings).link.timeout) := by
  refine read.decides distinct (fun s => s.link.timeout) .timeout
    (fun ms value => value = .integer ms.toNat ∧ ms ≠ 0) ?_ ?_
  · intro y other s
    cases y <;> first | rfl | exact absurd rfl other
  · intro x value same told
    cases told <;> cases same
    next waits => exact ⟨_, ⟨rfl, waits⟩, fun _ => rfl⟩

theorem idleTimeout_decides : Decides sections .idleTimeout
    (fun value => value = .integer (Settings.ofList list).link.idleTimeout.toNat ∧
      (Settings.ofList list).link.idleTimeout ≠ 0)
    ((Settings.ofList list).link.idleTimeout = ({} : Settings).link.idleTimeout) := by
  refine read.decides distinct (fun s => s.link.idleTimeout) .idleTimeout
    (fun ms value => value = .integer ms.toNat ∧ ms ≠ 0) ?_ ?_
  · intro y other s
    cases y <;> first | rfl | exact absurd rfl other
  · intro x value same told
    cases told <;> cases same
    next waits => exact ⟨_, ⟨rfl, waits⟩, fun _ => rfl⟩

theorem standsFor : StandsFor sections (Settings.ofList list) := by
  have timeout := read.timeout_decides distinct
  have idle := read.idleTimeout_decides distinct
  constructor
  case timeout => exact ⟨fun value gives => (timeout.1 value gives).1, timeout.2⟩
  case idleTimeout => exact ⟨fun value gives => (idle.1 value gives).1, idle.2⟩
  case speed =>
    refine read.decides distinct (fun s => s.link.line.speed) .speed
      (fun speed value => value = .integer speed.baudrate) ?_ ?_
    · intro y other s
      cases y <;> first | rfl | exact absurd rfl other
    · intro x value same told
      cases told <;> cases same
      exact ⟨_, rfl, fun _ => rfl⟩
  case duplex =>
    refine read.decides distinct (fun s => s.link.line.duplex) .duplex
      (fun duplex value => value = .text "full" ∧ duplex = .full) ?_ ?_
    · intro y other s
      cases y <;> first | rfl | exact absurd rfl other
    · intro x value same told
      cases told <;> cases same
      exact ⟨_, ⟨rfl, rfl⟩, fun _ => rfl⟩
  case initiatorLevel =>
    refine read.decides distinct (fun s => s.initiatorLevel) .initiatorLevel
      (fun high value => value = .boolean high ∨ value = .text (if high then "high" else "low"))
      ?_ ?_
    · intro y other s
      cases y <;> first | rfl | exact absurd rfl other
    · intro x value same told
      cases told <;> cases same
      · exact ⟨_, .inl rfl, fun _ => rfl⟩
      · exact ⟨_, .inr rfl, fun _ => rfl⟩
  case checkInterval =>
    refine ⟨?_, read.interval_decides distinct⟩
    intro value gives
    obtain ⟨x, member, same, told⟩ := read.told _ _ gives
    cases told <;> cases same
    rw [read.ofList_checkInterval distinct member]

/-- No wait that is set or left has no length. -/
theorem validate : (Settings.ofList list).link.validate = .ok () := by
  refine LinkConfig.validate_eq_ok_iff.mpr ⟨?_, ?_⟩
  · apply (read.timeout_decides distinct).elim
    · exact fun value told => told.2
    · intro left
      rw [left]
      decide
  · apply (read.idleTimeout_decides distinct).elim
    · exact fun value told => told.2
    · intro left
      rw [left]
      decide

end ReadFrom

/-- A file that the check lets through is read without an error, in whichever way it is written down,
and gives the settings that it stands for. -/
theorem parse_of_check (distinct : DistinctNames sections)
    (fine : (SettingsValue.table sections).check = []) {lines : List (List Char)} {text : List Char}
    (shows : ShowsSections sections lines) (laid : Text.LaidOut lines text) :
    ∃ settings, Settings.parse text = .ok settings ∧ StandsFor sections settings := by
  obtain ⟨ordered, parts, same, shown, rfl⟩ := shows
  obtain ⟨list, read, separate, all⟩ := readLines_sections shown fun entry member =>
    accepted_of_check distinct fine (same.mem_iff.mp member)
  have found := read.perm same
  refine ⟨Settings.ofList list, ?_, found.standsFor distinct⟩
  rw [Settings.parse, Text.lines_of_laidOut laid separate, all]
  simp only [found.validate distinct]

/-- Two sections, written the other way round, with an underscore and both ways to end a line. -/
theorem parse_of_check_low :
    let sections : List SettingsEntry :=
      [("link", .table [("speed", .integer 115200), ("timeout_ms", .integer 20)]),
        ("role", .table [("initiator_level", .text "low")])]
    let text := "[role]\r\ninitiator_level = \"low\"\n[link]\ntimeout_ms = 20\nspeed = 115_200".toList
    DistinctNames sections ∧ (SettingsValue.table sections).check = [] ∧
      ∃ settings, Settings.parse text = .ok settings ∧ StandsFor sections settings := by
  intro sections text
  have distinct : DistinctNames sections := by
    refine ⟨by decide, ?_⟩
    intro name entries member
    simp only [sections, List.mem_cons, List.not_mem_nil, Prod.mk.injEq,
      SettingsValue.table.injEq, or_false] at member
    rcases member with ⟨_, rfl⟩ | ⟨_, rfl⟩ <;> decide
  have top : (SettingsValue.table sections).entries? = some sections :=
    entries?_of_sorted (by decide)
  have link_entries : (SettingsValue.table [("speed", .integer 115200),
      ("timeout_ms", .integer 20)]).entries? = some _ := entries?_of_sorted (by decide)
  have role_entries : (SettingsValue.table [("initiator_level", .text "low")]).entries? = some _ :=
    entries?_of_sorted (by decide)
  have known : (SettingsValue.table sections).checkSections = [] := by
    rw [SettingsValue.checkSections, top]
    simp only [Option.getD_some, sections, List.flatMap_cons, List.flatMap_nil, link_entries,
      role_entries]
    decide
  have given (key : SettingKey) : (SettingsValue.table sections).setting? key =
      match key with
      | .speed => some (.integer 115200)
      | .timeout => some (.integer 20)
      | .initiatorLevel => some (.text "low")
      | _ => none := by
    rw [SettingsValue.setting?, SettingsValue.get?, top]
    cases key with
    | initiatorLevel => exact congrArg (Option.bind · _) role_entries
    | _ => exact congrArg (Option.bind · _) link_entries
  have fine : (SettingsValue.table sections).check = [] := by
    rw [SettingsValue.check, known]
    simp only [given]
    decide
  have speed : (SettingsValue.integer 115200).Shows "115_200".toList :=
    ⟨_, ⟨by decide, by decide, by decide⟩, rfl⟩
  have timeout : (SettingsValue.integer 20).Shows "20".toList :=
    ⟨_, ⟨by decide, by decide, by decide⟩, rfl⟩
  have link : SettingsEntry.ShowsSection
      ("link", .table [("speed", .integer 115200), ("timeout_ms", .integer 20)])
      ["[link]".toList, "timeout_ms = 20".toList, "speed = 115_200".toList] :=
    ⟨_, _, .swap .., .cons ⟨_, timeout, rfl⟩ (.cons ⟨_, speed, rfl⟩ .nil), rfl⟩
  have role : SettingsEntry.ShowsSection ("role", .table [("initiator_level", .text "low")])
      ["[role]".toList, "initiator_level = \"low\"".toList] :=
    ⟨_, _, .refl _, .cons ⟨_, rfl, rfl⟩ .nil, rfl⟩
  have shows : ShowsSections sections ["[role]".toList, "initiator_level = \"low\"".toList,
      "[link]".toList, "timeout_ms = 20".toList, "speed = 115_200".toList] :=
    ⟨_, _, .swap .., .cons role (.cons link .nil), rfl⟩
  have laid : Text.LaidOut ["[role]".toList, "initiator_level = \"low\"".toList,
      "[link]".toList, "timeout_ms = 20".toList, "speed = 115_200".toList] text :=
    .returnFeed (.feed (.feed (.feed (.unended (by decide)))))
  exact ⟨distinct, fine, parse_of_check distinct fine shows laid⟩

end SplitKeyboard
