import SplitKeyboard.Proofs.Joint.History

/-!
What was sent and what was taken, with its places. If it is known which calls an engine made, its
trace tells where the bytes of each of them are.
-/
namespace SplitKeyboard

open Bench (WireEnd)

variable {Handler τ : Type} {handle : HandlerCall Handler → τ → List UInt8 × τ}

namespace Target.Exchange

def written? : Exchange Handler → Option (List UInt8)
  | ⟨.inl (.write data _), _⟩ => some data
  | _ => none

def read? : Exchange Handler → Option (List UInt8)
  | ⟨.inl (.read _ _), delivery⟩ => some delivery.bytes
  | _ => none

end Target.Exchange

/-- Bytes with the place where they begin in a record. -/
structure Segment where
  place : Nat
  bytes : List UInt8
  deriving DecidableEq

/-- What was sent, in order, with its places in the record of the other end. -/
def segmentsSent (entries : List (Entry Handler)) : List Segment :=
  entries.filterMap fun entry =>
    (Target.Exchange.written? entry.exchange).map (⟨entry.told, ·⟩)

/-- What was taken, in order, with its places in the record of the own end. -/
def segmentsTaken (entries : List (Entry Handler)) : List Segment :=
  entries.filterMap fun entry =>
    (Target.Exchange.read? entry.exchange).map (⟨entry.heard, ·⟩)

def handlerRuns (entries : List (Entry Handler)) : List (HandlerCall Handler × List UInt8) :=
  entries.filterMap fun entry =>
    match entry.exchange with
    | ⟨.inr call, output⟩ => some (call, output)
    | _ => none

section Segments

variable (first last entries : List (Entry Handler))

@[simp] theorem segmentsSent_append :
    segmentsSent (first ++ last) = segmentsSent first ++ segmentsSent last :=
  List.filterMap_append

@[simp] theorem segmentsTaken_append :
    segmentsTaken (first ++ last) = segmentsTaken first ++ segmentsTaken last :=
  List.filterMap_append

@[simp] theorem handlerRuns_append :
    handlerRuns (first ++ last) = handlerRuns first ++ handlerRuns last :=
  List.filterMap_append

theorem length_segmentsSent : (segmentsSent entries).length =
    ((entries.map Entry.exchange).filterMap Target.Exchange.written?).length := by
  rw [segmentsSent, List.filterMap_map]
  induction entries with
  | nil => rfl
  | cons entry entries ih =>
    rw [List.filterMap_cons, List.filterMap_cons, Function.comp_apply]
    cases Target.Exchange.written? entry.exchange with
    | none => exact ih
    | some data => exact congrArg (· + 1) ih

theorem segmentsTaken_eq_nil
    (silent : (entries.map Entry.exchange).filterMap Target.Exchange.read? = []) :
    segmentsTaken entries = [] := by
  rw [List.filterMap_map, List.filterMap_eq_nil_iff] at silent
  apply List.filterMap_eq_nil_iff.mpr
  intro entry member
  rw [show Target.Exchange.read? entry.exchange = none from silent entry member]
  rfl

end Segments

namespace Traced

variable {duplex : Duplex} {side : WireEnd} {own other : List Mark} {heard told heard' told' : Nat}
  {first last entries : List (Entry Handler)}

theorem split (traced : Traced handle duplex side own other heard told (first ++ last) heard' told') :
    ∃ middle said, Traced handle duplex side own other heard told first middle said ∧
      Traced handle duplex side own other middle said last heard' told' := by
  induction first generalizing heard told with
  | nil => exact ⟨heard, told, .nil _ _, traced⟩
  | cons entry first ih =>
    cases traced with
    | wrote foreign behind unheard there rest =>
      obtain ⟨middle, said, one, two⟩ := ih rest
      exact ⟨middle, said, .wrote foreign behind unheard there one, two⟩
    | took there rest =>
      obtain ⟨middle, said, one, two⟩ := ih rest
      exact ⟨middle, said, .took there one, two⟩
    | dropped rest =>
      obtain ⟨middle, said, one, two⟩ := ih rest
      exact ⟨middle, said, .dropped one, two⟩
    | cleared rest =>
      obtain ⟨middle, said, one, two⟩ := ih rest
      exact ⟨middle, said, .cleared one, two⟩
    | handled made rest =>
      obtain ⟨middle, said, one, two⟩ := ih rest
      exact ⟨middle, said, .handled made one, two⟩

end Traced

/-- Where an end wrote, if it had heard and told this much before. -/
structure Wrote (duplex : Duplex) (side : WireEnd) (other : List Mark) (heard told place : Nat)
    (data : List UInt8) : Prop where
  behind : told ≤ place
  foreign : Foreign side other told place
  unheard : duplex = .half → heard ≤ place
  there : marks side data <+: other.drop place

/-- How much of what it writes comes back to an end. -/
def echo (duplex : Duplex) (count : Nat) : Nat := if duplex = .half then count else 0

namespace Traced

variable {duplex : Duplex} {side : WireEnd} {own other : List Mark} {heard told heard' told' : Nat}
  {entries : List (Entry Handler)}

theorem write_inv {data : List UInt8} {timeout : UInt32} {written : Option Nat}
    (traced : Traced handle duplex side own other heard told entries heard' told')
    (calls : entries.map Entry.exchange = [⟨.inl (.write data timeout), written⟩]) :
    ∃ place, segmentsSent entries = [⟨place, data⟩] ∧ segmentsTaken entries = [] ∧
      handlerRuns entries = [] ∧ Wrote duplex side other heard told place data ∧ heard' = heard ∧
      told' = place + data.length := by
  obtain ⟨⟨exchange, start, place⟩, rest, rfl, same, none_left⟩ := List.map_eq_cons_iff.mp calls
  obtain rfl := List.map_eq_nil_iff.mp none_left
  cases same
  cases traced with
  | wrote foreign behind unheard there rest =>
    cases rest
    exact ⟨place, rfl, rfl, rfl, ⟨behind, foreign, unheard, there⟩, rfl, rfl⟩

theorem skip_inv {count dropped : Nat} {timeout : UInt32}
    (traced : Traced handle duplex side own other heard told entries heard' told')
    (calls : entries.map Entry.exchange = [⟨.inl (.skip count timeout), some dropped⟩]) :
    segmentsSent entries = [] ∧ segmentsTaken entries = [] ∧ handlerRuns entries = [] ∧
      heard' = heard + dropped ∧ told' = told := by
  obtain ⟨⟨exchange, start, place⟩, rest, rfl, same, none_left⟩ := List.map_eq_cons_iff.mp calls
  obtain rfl := List.map_eq_nil_iff.mp none_left
  cases same
  cases traced with
  | dropped rest =>
    cases rest
    exact ⟨rfl, rfl, rfl, rfl, rfl⟩

theorem read_inv {count : Nat} {timeout : UInt32} {delivery : Delivery}
    (traced : Traced handle duplex side own other heard told entries heard' told')
    (calls : entries.map Entry.exchange = [⟨.inl (.read count timeout), delivery⟩])
    (full : delivery.count = some count) :
    segmentsSent entries = [] ∧ segmentsTaken entries = [⟨heard, delivery.bytes⟩] ∧
      handlerRuns entries = [] ∧ delivery.bytes.length = count ∧
      delivery.bytes <+: (own.map Mark.byte).drop heard ∧ heard' = heard + count ∧ told' = told := by
  obtain ⟨⟨exchange, start, place⟩, rest, rfl, same, none_left⟩ := List.map_eq_cons_iff.mp calls
  obtain rfl := List.map_eq_nil_iff.mp none_left
  cases same
  cases traced with
  | took there rest =>
    cases rest
    cases full
    exact ⟨rfl, rfl, rfl, rfl, there, rfl, rfl⟩

theorem handling_inv {table : Table Handler} {entry : Descriptor Handler} {output : List UInt8}
    (traced : Traced handle duplex side own other heard told entries heard' told')
    (calls : entries.map Entry.exchange = Target.handling table entry output) :
    segmentsSent entries = [] ∧ segmentsTaken entries = [] ∧
      (∀ handler, entry.handler = some handler →
        let call : HandlerCall Handler := ⟨handler, table.requestOf entry, table.replyOf entry⟩
        handlerRuns entries = [(call, output)] ∧ ∃ handlers, output = (handle call handlers).1) ∧
      heard' = heard ∧ told' = told := by
  unfold Target.handling at calls
  cases runs : entry.handler with
  | none =>
    rw [runs] at calls
    obtain rfl := List.map_eq_nil_iff.mp calls
    cases traced
    refine ⟨rfl, rfl, ?_, rfl, rfl⟩
    intro handler registered
    cases registered
  | some handler =>
    rw [runs] at calls
    obtain ⟨⟨exchange, start, place⟩, rest, rfl, same, none_left⟩ := List.map_eq_cons_iff.mp calls
    obtain rfl := List.map_eq_nil_iff.mp none_left
    cases same
    cases traced with
    | handled made rest =>
      cases rest
      refine ⟨rfl, rfl, ?_, rfl, rfl⟩
      rintro handler ⟨⟩
      exact ⟨rfl, made⟩

/-- A trace of all that sends some bytes: the write and, on a half-duplex wire, the drop of its
echo. -/
theorem sending_inv {κ : Type} {link : Link} {label : κ} {data : List UInt8}
    {exchanges : List SerialExchange}
    (traced : Traced handle link.duplex side own other heard told entries heard' told')
    (follows : Follows (link.sending label data) exchanges none)
    (calls : entries.map Entry.exchange = exchanges.map Program.Exchange.beside) :
    ∃ place, segmentsSent entries = [⟨place, data⟩] ∧ segmentsTaken entries = [] ∧
      handlerRuns entries = [] ∧ Wrote link.duplex side other heard told place data ∧
      heard' = heard + echo link.duplex data.length ∧ told' = place + data.length := by
  unfold Link.sending at follows
  cases follows with
  | goes met left =>
    obtain ⟨one, rest, rfl, same, others⟩ := List.map_eq_cons_iff.mp calls
    rw [← List.singleton_append] at traced ⊢
    obtain ⟨middle, said, writes, drops⟩ := traced.split
    obtain ⟨place, sent, taken, ran, wrote, rfl, rfl⟩ :=
      writes.write_inv (congrArg (List.cons · []) same)
    refine ⟨place, ?_⟩
    rw [segmentsSent_append, segmentsTaken_append, handlerRuns_append, sent, taken, ran]
    by_cases half : link.duplex = .half
    · rw [if_pos half] at left
      cases left with
      | goes gone done =>
        cases done
        cases gone
        obtain ⟨nothing_sent, nothing_taken, nothing_ran, rfl, rfl⟩ := drops.skip_inv others
        rw [nothing_sent, nothing_taken, nothing_ran, echo, if_pos half]
        exact ⟨rfl, rfl, rfl, wrote, rfl, rfl⟩
    · rw [if_neg half] at left
      cases left
      obtain rfl := List.map_eq_nil_iff.mp others
      cases drops
      rw [echo, if_neg half]
      exact ⟨rfl, rfl, rfl, wrote, rfl, rfl⟩

end Traced
end SplitKeyboard
