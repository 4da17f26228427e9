import SplitKeyboard.Proofs.Settings.Rendering

/-!
What the check at build time lets through. Without a complaint every section has a known name, and
every value in it tells a setting of its key.
-/
namespace SplitKeyboard

variable {sections entries : List SettingsEntry} {key : SettingKey} {value : SettingsValue}

namespace Setting

/-- A value tells one setting of a key at most. -/
theorem ToldBy.unique {x y : Setting} (first : x.ToldBy value) (second : y.ToldBy value)
    (same : x.key = y.key) : x = y := by
  generalize told : value = again at second
  cases first with
  | speed speed =>
    cases second <;> cases same
    next found =>
      have rates : speed.baudrate = found.baudrate :=
        Int.ofNat_inj.mp (SettingsValue.integer.inj told)
      have back := Speed.ofBaudrate?_baudrate speed
      rw [rates, Speed.ofBaudrate?_baudrate] at back
      rw [Option.some.inj back]
  | duplex =>
    cases second <;> cases same
    rfl
  | timeout | checkInterval | idleTimeout =>
    cases second <;> cases same
    have times := Int.ofNat_inj.mp (SettingsValue.integer.inj told)
    rw [UInt32.toNat_inj.mp times]
  | flag high =>
    cases second <;> cases same <;> cases told
    rfl
  | level high =>
    cases second <;> cases same
    · cases told
    · next found =>
      cases high <;> cases found <;>
        first | rfl | exact absurd (SettingsValue.text.inj told) (by decide)

end Setting

/-- An entry under a heading tells a setting. -/
structure SettingsEntry.Tells (heading : Heading) (entry : SettingsEntry) (setting : Setting) :
    Prop where
  heading : setting.key.heading = heading
  name : setting.key.name = entry.1
  told : setting.ToldBy entry.2

/-- A section with a known name, whose entries all tell settings that belong to it. -/
def SettingsEntry.Accepted (entry : SettingsEntry) : Prop :=
  ∃ (heading : Heading) (entries : List SettingsEntry), entry = (heading.name, .table entries) ∧
    ∀ one ∈ entries, ∃ setting, one.Tells heading setting

section Check

open SettingsValue

theorem exists_told_time {least : Nat} {make : UInt32 → Setting}
    (tells : ∀ ms : UInt32, least ≤ ms.toNat → (make ms).ToldBy (.integer ms.toNat))
    (fine : checkTime key least value = []) : ∃ ms, (make ms).ToldBy value := by
  unfold checkTime at fine
  split at fine
  · next n =>
    split at fine
    · next range =>
      obtain ⟨low, high⟩ := range
      have fits : n.toNat < UInt32.size := by omega
      have back : (UInt32.ofNat n.toNat).toNat = n.toNat := UInt32.toNat_ofNat_of_lt' fits
      have same : ((UInt32.ofNat n.toNat).toNat : Int) = n := by omega
      have told := tells (UInt32.ofNat n.toNat) (by omega)
      rw [same] at told
      exact ⟨_, told⟩
    · cases fine
  · cases fine

theorem ne_zero_of_le {ms : UInt32} (least : 1 ≤ ms.toNat) : ms ≠ 0 := by
  rintro rfl
  exact absurd least (by decide)

/-- A value without a complaint tells a setting of its key. -/
theorem exists_told (fine : checkValue key value = []) :
    ∃ setting : Setting, setting.key = key ∧ setting.ToldBy value := by
  cases key with
  | speed =>
    simp only [checkValue] at fine
    unfold checkSpeed at fine
    split at fine
    · next rate =>
      split at fine
      · next supported =>
        obtain ⟨speed, _, same⟩ := List.any_eq_true.mp supported
        rw [← eq_of_beq same]
        exact ⟨_, rfl, .speed speed⟩
      · cases fine
    · cases fine
  | duplex =>
    simp only [checkValue] at fine
    unfold checkDuplex at fine
    split at fine <;> cases fine
    exact ⟨_, rfl, .duplex⟩
  | timeout =>
    obtain ⟨ms, told⟩ := exists_told_time (fun ms least => .timeout (ne_zero_of_le least)) fine
    exact ⟨_, rfl, told⟩
  | checkInterval =>
    obtain ⟨ms, told⟩ := exists_told_time (fun ms _ => .checkInterval ms) fine
    exact ⟨_, rfl, told⟩
  | idleTimeout =>
    obtain ⟨ms, told⟩ := exists_told_time (fun ms least => .idleTimeout (ne_zero_of_le least)) fine
    exact ⟨_, rfl, told⟩
  | initiatorLevel =>
    simp only [checkValue] at fine
    unfold checkLevel at fine
    split at fine
    · exact ⟨_, rfl, .flag _⟩
    · exact ⟨_, rfl, .level true⟩
    · exact ⟨_, rfl, .level false⟩
    · cases fine

theorem get?_of_mem {name : String} (distinct : (entries.map Prod.fst).Nodup)
    (member : (name, value) ∈ entries) : (table entries).get? name = some value := by
  have sorted := List.mergeSort_perm entries fun a b => decide (a.1 ≤ b.1)
  generalize arranged : entries.mergeSort (fun a b => decide (a.1 ≤ b.1)) = ordered at sorted
  have found : ordered.lookup name = some value := by
    obtain ⟨before, after, split⟩ := List.append_of_mem (sorted.mem_iff.mpr member)
    refine List.lookup_eq_some_iff.mpr ⟨before, after, split, fun other ahead => ?_⟩
    have apart := (sorted.map Prod.fst).nodup_iff.mpr distinct
    rw [split, List.map_append, List.map_cons] at apart
    have disjoint := (List.nodup_append.mp apart).2.2
    rw [bne_iff_ne]
    exact (disjoint _ (List.mem_map_of_mem ahead) _ (List.mem_cons_self ..)).symm
  rw [get?, entries?, arranged, Option.bind_some, found]

theorem setting?_of_gives (distinct : DistinctNames sections) (gives : Gives sections key value) :
    (table sections).setting? key = some value := by
  obtain ⟨entries, placed, given⟩ := gives
  rw [setting?, get?_of_mem distinct.names placed, Option.bind_some]
  exact get?_of_mem (distinct.keys _ _ placed) given

/-- Entries in the order of their names are looked up as they are. -/
theorem entries?_of_sorted (sorted : entries.Pairwise fun a b => decide (a.1 ≤ b.1) = true) :
    (table entries).entries? = some entries :=
  congrArg some (List.mergeSort_of_pairwise sorted)

theorem mem_entries? {one : SettingsEntry} {ordered : List SettingsEntry}
    (arranged : (table entries).entries? = some ordered) : one ∈ ordered ↔ one ∈ entries := by
  cases arranged
  exact List.mem_mergeSort

theorem name_of_ofName? {name : String} {heading : Heading}
    (found : Heading.ofName? name = some heading) : heading.name = name := by
  have same := List.find?_some found
  exact eq_of_beq same

theorem ofName?_name (heading : Heading) : Heading.ofName? heading.name = some heading := by
  cases heading <;> rfl

theorem name_injective {first second : Heading} (same : first.name = second.name) :
    first = second := by
  have found := ofName?_name first
  rw [same, ofName?_name] at found
  exact (Option.some.inj found).symm

theorem SettingKey.find?_eq_some_iff {heading : Heading} {name : String} :
    SettingKey.find? heading name = some key ↔ key.heading = heading ∧ key.name = name := by
  constructor
  · intro known
    have matching := List.find?_some known
    rwa [Bool.and_eq_true, beq_iff_eq, beq_iff_eq] at matching
  · rintro ⟨rfl, rfl⟩
    exact SettingKey.find?_name key

theorem key_injective {first second : SettingKey} (headings : first.heading = second.heading)
    (names : first.name = second.name) : first = second := by
  have found := SettingKey.find?_eq_some_iff.mpr ⟨headings, names⟩
  rw [SettingKey.find?_name] at found
  exact (Option.some.inj found).symm

theorem mem_all (key : SettingKey) : key ∈ SettingKey.all := by cases key <;> decide

/-- A file without complaints has accepted sections only. -/
theorem accepted_of_check (distinct : DistinctNames sections)
    (fine : (table sections).check = []) {entry : SettingsEntry} (member : entry ∈ sections) :
    entry.Accepted := by
  obtain ⟨known, sound⟩ := List.append_eq_nil_iff.mp fine
  have mine := List.flatMap_eq_nil_iff.mp known entry (List.mem_mergeSort.mpr member)
  obtain ⟨name, part⟩ := entry
  dsimp only at mine
  split at mine
  · cases mine
  · next heading named =>
    split at mine
    · cases mine
    · next ordered arranged =>
      cases part with
      | table entries =>
        cases name_of_ofName? named
        refine ⟨heading, entries, rfl, fun one inside => ?_⟩
        have all_known := List.filterMap_eq_nil_iff.mp mine one ((mem_entries? arranged).mpr inside)
        obtain ⟨name, value⟩ := one
        dsimp only at all_known
        split at all_known
        · next key found =>
          obtain ⟨rfl, rfl⟩ := SettingKey.find?_eq_some_iff.mp found
          have clean := List.flatMap_eq_nil_iff.mp sound key (mem_all key)
          rw [setting?_of_gives distinct ⟨entries, member, inside⟩] at clean
          obtain ⟨setting, rfl, told⟩ := exists_told clean
          exact ⟨setting, rfl, rfl, told⟩
        · cases all_known
      | _ => cases arranged

end Check

end SplitKeyboard
