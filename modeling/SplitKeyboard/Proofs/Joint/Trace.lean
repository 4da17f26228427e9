import SplitKeyboard.Proofs.Joint.System

/-!
Where the bytes of an exchange are in the record of the wire. This holds in any order of steps, also
if waits run out at any moment, as long as the wire loses nothing: what an engine takes comes from
its own record, place after place, and between two of its writes only the other end writes.
-/
namespace SplitKeyboard

open Bench (Wire WireEnd)

variable {Handler τ : Type} {handle : HandlerCall Handler → τ → List UInt8 × τ}

namespace Traffic

/-- A wire that has lost nothing. Without echo only the other end's bytes come to an end, and with
echo the same bytes come to both. -/
structure Kept (traffic : Traffic) : Prop where
  sound : traffic.Sound
  lossless : traffic.Lossless
  full : traffic.wire.duplex = .full → ∀ side, ∀ mark ∈ traffic.came side, mark.sender = side.other
  half : traffic.wire.duplex = .half → traffic.came .near = traffic.came .far

/-- What a look at the wire by one end does to it: what it writes comes to both records as far as it
reaches, and the other end hears nothing. -/
structure Moves (traffic after : Traffic) (side : WireEnd) (data : List UInt8) : Prop where
  sound : after.Sound
  duplex : after.wire.duplex = traffic.wire.duplex
  came : ∀ there, after.came there = traffic.came there ++
    if traffic.wire.reaches side there then marks side data else []
  heard : after.heard side.other = traffic.heard side.other
  lossless : traffic.Lossless

variable {traffic after : Traffic} {side : WireEnd} {data : List UInt8}

theorem kept_new (duplex : Duplex) : (new duplex).Kept := by
  refine ⟨sound_new duplex, ?_, ?_, fun _ => rfl⟩
  · intro side
    cases side <;> rfl
  · intro _ side mark member
    cases member

/-- An end of a half-duplex wire has not heard more than has come to the other end. -/
theorem Kept.heard_le_other (kept : traffic.Kept) (side : WireEnd)
    (half : traffic.wire.duplex = .half) :
    traffic.heard side ≤ (traffic.came side.other).length := by
  have alike : traffic.came side = traffic.came side.other := by
    cases side with
    | near => exact kept.half half
    | far => exact (kept.half half).symm
  rw [← alike]
  exact kept.sound.heard_le side

theorem Kept.moves (kept : traffic.Kept) (moves : traffic.Moves after side data)
    (lossless : after.Lossless) : after.Kept := by
  refine ⟨moves.sound, lossless, ?_, ?_⟩
  · intro full there mark member
    rw [moves.duplex] at full
    rw [moves.came, List.mem_append] at member
    rcases member with before | new
    · exact kept.full full there mark before
    · split at new
      · next arrives =>
        obtain ⟨byte, _, rfl⟩ := List.mem_map.mp new
        rcases arrives with rfl | half
        · exact side.other_other.symm
        · rw [full] at half
          cases half
      · cases new
  · intro half
    rw [moves.duplex] at half
    rw [moves.came, moves.came, kept.half half, if_pos (.inr half), if_pos (.inr half)]

theorem Takes.moves {count : Nat} (takes : traffic.Takes after side count)
    (lossless : after.Lossless) : traffic.Moves after side [] := by
  have before : traffic.Lossless := by
    intro there
    by_cases own : there = side
    · rw [own, ← takes.overruns]
      exact lossless side
    · rw [← takes.others there own]
      exact lossless there
  refine ⟨takes.sound, takes.duplex, ?_, ?_, before⟩
  · intro there
    rw [takes.came, marks, List.map_nil, ite_self, List.append_nil]
  · unfold Traffic.heard
    rw [takes.came, takes.others _ side.other_ne]

theorem Sound.moves_write (sound : traffic.Sound)
    (lossless : (traffic.write side data).Lossless) :
    traffic.Moves (traffic.write side data) side data := by
  obtain ⟨before, fits⟩ := sound.lossless_write_iff.mp lossless
  refine ⟨sound.write side data, Wire.duplex_write _ _ _, ?_, sound.heard_write _ _ _, before⟩
  intro there
  rw [came_write]
  split
  · next arrives => rw [List.take_of_length_le (fits there arrives)]
  · rfl

end Traffic

/-- From the first place up to the last a record holds only what the other end has sent. -/
def Foreign (side : WireEnd) (record : List Mark) (first last : Nat) : Prop :=
  ∀ i, first ≤ i → i < last → ∃ byte, record[i]? = some ⟨side.other, byte⟩

theorem getElem?_of_prefix {record later : List Mark} {i : Nat} {mark : Mark}
    (grows : record <+: later) (there : record[i]? = some mark) : later[i]? = some mark := by
  obtain ⟨more, rfl⟩ := grows
  rw [List.getElem?_append_left (List.getElem?_eq_some_iff.mp there).1]
  exact there

theorem Foreign.mono {side : WireEnd} {record later : List Mark} {first last : Nat}
    (foreign : Foreign side record first last) (grows : record <+: later) :
    Foreign side later first last := by
  intro i above below
  obtain ⟨byte, there⟩ := foreign i above below
  exact ⟨byte, getElem?_of_prefix grows there⟩

/-- What stands in a list from some place on stays there. -/
theorem prefix_drop_mono {β : Type} {part list later : List β} {place : Nat}
    (there : part <+: list.drop place) (grows : list <+: later) : part <+: later.drop place := by
  rcases eq_or_ne part [] with rfl | some_part
  · exact List.nil_prefix
  · obtain ⟨more, rfl⟩ := grows
    have within : place ≤ list.length := by
      have length := there.length_le
      have positive := List.length_pos_iff.mpr some_part
      rw [List.length_drop] at length
      omega
    rw [List.drop_append_of_le_length within]
    exact there.trans (List.prefix_append _ _)

/-- What comes in two parts is there as a whole. -/
theorem prefix_append_of_drop {β : Type} {first last list : List β} (begins : first <+: list)
    (goes_on : last <+: list.drop first.length) : first ++ last <+: list := by
  obtain ⟨more, rfl⟩ := begins
  rw [List.drop_left] at goes_on
  exact (List.prefix_append_right_inj first).mpr goes_on

/-- The exchanges have their places one after the other. The first two numbers are the places in the
own record up to which the end has heard, and in the other record behind its last write, before the
exchanges. The last two are the same after them. -/
inductive Traced (handle : HandlerCall Handler → τ → List UInt8 × τ) (duplex : Duplex)
    (side : WireEnd) (own other : List Mark) :
    Nat → Nat → List (Entry Handler) → Nat → Nat → Prop
  | nil (heard told) : Traced handle duplex side own other heard told [] heard told
  | wrote {heard told place timeout entries heard' told'} {data : List UInt8}
      (foreign : Foreign side other told place) (behind : told ≤ place)
      (unheard : duplex = .half → heard ≤ place) (there : marks side data <+: other.drop place)
      (rest : Traced handle duplex side own other heard (place + data.length) entries heard' told') :
      Traced handle duplex side own other heard told
        (⟨⟨.inl (.write data timeout), some data.length⟩, heard, place⟩ :: entries) heard' told'
  | took {heard told place count timeout entries heard' told'} {bytes : List UInt8}
      (there : bytes <+: (own.map Mark.byte).drop heard)
      (rest : Traced handle duplex side own other (heard + bytes.length) told entries heard' told') :
      Traced handle duplex side own other heard told
        (⟨⟨.inl (.read count timeout), (⟨bytes, some bytes.length⟩ : Delivery)⟩, heard, place⟩ ::
          entries) heard' told'
  | dropped {heard told place count dropped timeout entries heard' told'}
      (rest : Traced handle duplex side own other (heard + dropped) told entries heard' told') :
      Traced handle duplex side own other heard told
        (⟨⟨.inl (.skip count timeout), some dropped⟩, heard, place⟩ :: entries) heard' told'
  | cleared {heard told place count entries heard' told'}
      (rest : Traced handle duplex side own other (heard + count) told entries heard' told') :
      Traced handle duplex side own other heard told (⟨⟨.inl .clear, ()⟩, heard, place⟩ :: entries)
        heard' told'
  | handled {heard told place call output entries heard' told'}
      (made : ∃ handlers, output = (handle call handlers).1)
      (rest : Traced handle duplex side own other heard told entries heard' told') :
      Traced handle duplex side own other heard told (⟨⟨.inr call, output⟩, heard, place⟩ :: entries)
        heard' told'

namespace Traced

variable {duplex : Duplex} {side : WireEnd} {own other own' other' : List Mark}
  {heard told heard' told' heard'' told'' : Nat} {entries more : List (Entry Handler)}

theorem append (one : Traced handle duplex side own other heard told entries heard' told')
    (two : Traced handle duplex side own other heard' told' more heard'' told'') :
    Traced handle duplex side own other heard told (entries ++ more) heard'' told'' := by
  induction one with
  | nil => exact two
  | wrote foreign behind unheard there _ ih => exact .wrote foreign behind unheard there (ih two)
  | took there _ ih => exact .took there (ih two)
  | dropped _ ih => exact .dropped (ih two)
  | cleared _ ih => exact .cleared (ih two)
  | handled made _ ih => exact .handled made (ih two)

/-- What comes later changes no place. -/
theorem mono (traced : Traced handle duplex side own other heard told entries heard' told')
    (own_grows : own <+: own') (other_grows : other <+: other') :
    Traced handle duplex side own' other' heard told entries heard' told' := by
  induction traced with
  | nil => exact .nil _ _
  | wrote foreign behind unheard there _ ih =>
    exact .wrote (foreign.mono other_grows) behind unheard (prefix_drop_mono there other_grows) ih
  | took there _ ih => exact .took (prefix_drop_mono there (own_grows.map Mark.byte)) ih
  | dropped _ ih => exact .dropped ih
  | cleared _ ih => exact .cleared ih
  | handled made _ ih => exact .handled made ih

end Traced

namespace Traffic

variable {traffic after : Traffic} {side : WireEnd} {data : List UInt8} {patient : Bool}
  {progress : Progress} {request : SerialRequest}

/-- A look at a wire keeps its record sound, and does not make up for what was lost before. -/
theorem Sound.attend (sound : traffic.Sound) (side : WireEnd) (patient : Bool) (progress : Progress)
    (request : SerialRequest) :
    (traffic.attend side patient progress request).2.Sound ∧
      ((traffic.attend side patient progress request).2.Lossless → traffic.Lossless) := by
  cases request with
  | write data timeout =>
    exact ⟨sound.write side data, fun lossless => (sound.lossless_write_iff.mp lossless).1⟩
  | read count timeout =>
    obtain ⟨_, takes⟩ := sound.takes_read side (count - progress.count)
    exact ⟨takes.sound, fun lossless => (takes.moves lossless).lossless⟩
  | skip count timeout =>
    obtain ⟨_, takes⟩ := sound.takes_skip side (count - progress.count)
    exact ⟨takes.sound, fun lossless => (takes.moves lossless).lossless⟩
  | clear =>
    have takes := sound.takes_clear side
    exact ⟨takes.sound, fun lossless => (takes.moves lossless).lossless⟩

theorem Kept.moves_refl (kept : traffic.Kept) (side : WireEnd) : traffic.Moves traffic side [] := by
  refine ⟨kept.sound, rfl, ?_, rfl, kept.lossless⟩
  intro there
  rw [marks, List.map_nil, ite_self, List.append_nil]

theorem Moves.came_prefix (moves : traffic.Moves after side data) (there : WireEnd) :
    traffic.came there <+: after.came there :=
  ⟨_, (moves.came there).symm⟩

end Traffic
end SplitKeyboard
