import SplitKeyboard.Link
import SplitKeyboard.Proofs.Transcript

/-!
Agendas of calls on a device. An agenda lists the calls of an exchange in which nothing fails, each
with the replies that let it go on. What an engine really does follows its agenda up to the first
call whose reply is none of these. The device is left open: it may reply anything at all.
-/
namespace SplitKeyboard

abbrev SerialExchange := Program.Exchange SerialRequest.Reply

def SerialExchange.read? : SerialExchange → Option (List UInt8)
  | ⟨.read _ _, delivery⟩ => some delivery.bytes
  | _ => none

def deliveries (exchanges : List SerialExchange) : List (List UInt8) :=
  exchanges.filterMap SerialExchange.read?

theorem deliveries_append (first last : List SerialExchange) :
    deliveries (first ++ last) = deliveries first ++ deliveries last :=
  List.filterMap_append

/-- One call of an agenda. The label tells which part of the exchange it belongs to. -/
structure Step (κ : Type) where
  label : κ
  request : SerialRequest
  /-- The replies that let the exchange go on. -/
  meets : request.Reply → Prop

namespace Step

variable {κ : Type}

/-- All of `data` must be taken. -/
def write (label : κ) (data : List UInt8) (timeout : UInt32) : Step κ :=
  ⟨label, .write data timeout, fun written => written = some data.length⟩

/-- All `count` bytes must come and are dropped. -/
def skip (label : κ) (count : Nat) (timeout : UInt32) : Step κ :=
  ⟨label, .skip count timeout, fun dropped => dropped = some count⟩

/-- All `count` bytes must come, and must be acceptable. -/
def read (label : κ) (count : Nat) (timeout : UInt32) (accepts : List UInt8 → Prop) : Step κ :=
  ⟨label, .read count timeout, fun delivery => delivery.count = some count ∧ accepts delivery.bytes⟩

end Step

/-- The calls made follow the agenda: each call in turn, up to and with the first whose reply does
not let the exchange go on. The label is of that call, and there is none if all went well. -/
inductive Follows {κ : Type} : List (Step κ) → List SerialExchange → Option κ → Prop
  | finished : Follows [] [] none
  | cut {step rest reply} (refused : ¬ step.meets reply) :
      Follows (step :: rest) [⟨step.request, reply⟩] (some step.label)
  | goes {step rest reply exchanges stop} (met : step.meets reply)
      (left : Follows rest exchanges stop) :
      Follows (step :: rest) (⟨step.request, reply⟩ :: exchanges) stop

section Follows

variable {κ : Type} {first last : List (Step κ)} {begun ended : List SerialExchange}
  {stop : Option κ}

theorem Follows.append (all : Follows first begun none) (more : Follows last ended stop) :
    Follows (first ++ last) (begun ++ ended) stop := by
  generalize noStop : (none : Option κ) = outcome at all
  induction all with
  | finished => exact more
  | cut refused => cases noStop
  | goes met _ ih => exact .goes met (ih noStop)

/-- After a failure nothing further on the agenda is done. -/
theorem Follows.append_cut {label : κ} (failed : Follows first begun (some label)) :
    Follows (first ++ last) begun (some label) := by
  generalize stopped : some label = outcome at failed ⊢
  induction failed with
  | finished => cases stopped
  | cut refused => exact .cut refused
  | goes met _ ih => exact .goes met (ih stopped)

/-- What follows two agendas follows the one, and goes on with the other if nothing fails there. -/
theorem Follows.parts {exchanges : List SerialExchange}
    (follows : Follows (first ++ last) exchanges stop) :
    ∃ begun ended, exchanges = begun ++ ended ∧
      ((Follows first begun none ∧ Follows last ended stop) ∨
        (Follows first begun stop ∧ stop ≠ none ∧ ended = [])) := by
  induction first generalizing exchanges with
  | nil => exact ⟨[], exchanges, rfl, .inl ⟨.finished, follows⟩⟩
  | cons step first ih =>
    cases follows with
    | cut refused => exact ⟨_, [], rfl, .inr ⟨.cut refused, Option.some_ne_none _, rfl⟩⟩
    | goes met left =>
      obtain ⟨begun, ended, rfl, ⟨whole, rest⟩ | ⟨part, stopped, rfl⟩⟩ := ih left
      · exact ⟨_ :: begun, ended, rfl, .inl ⟨.goes met whole, rest⟩⟩
      · exact ⟨_ :: begun, [], rfl, .inr ⟨.goes met part, stopped, rfl⟩⟩

theorem Follows.split {exchanges : List SerialExchange}
    (follows : Follows (first ++ last) exchanges none) :
    ∃ begun ended, exchanges = begun ++ ended ∧ Follows first begun none ∧
      Follows last ended none := by
  obtain ⟨begun, ended, rfl, both | ⟨_, failed, _⟩⟩ := follows.parts
  · exact ⟨begun, ended, rfl, both⟩
  · exact absurd rfl failed

/-- Whatever is called is on the agenda, in its order, and all of it is if nothing fails. -/
theorem Follows.requests {steps : List (Step κ)} (follows : Follows steps begun stop) :
    begun.map Sigma.fst <+: steps.map Step.request ∧
      (stop = none → begun.map Sigma.fst = steps.map Step.request) := by
  induction follows with
  | finished => exact ⟨List.prefix_rfl, fun _ => rfl⟩
  | cut refused => exact ⟨by simp, fun went_on => nomatch went_on⟩
  | goes met left ih =>
    obtain ⟨within, whole⟩ := ih
    simp only [List.map_cons, List.cons_prefix_cons, true_and]
    exact ⟨within, fun went_on => congrArg (List.cons _) (whole went_on)⟩

/-- The same calls cannot stop in two places. -/
theorem Follows.stop_unique {steps : List (Step κ)} {rest rest' : List SerialExchange}
    {stop' : Option κ} (follows : Follows steps begun stop) (follows' : Follows steps ended stop')
    (same : begun ++ rest = ended ++ rest') : stop = stop' := by
  induction follows generalizing ended with
  | finished =>
    cases follows'
    rfl
  | cut refused =>
    cases follows' with
    | cut _ => rfl
    | goes met _ =>
      cases same
      exact absurd met refused
  | goes met _ ih =>
    cases follows' with
    | cut refused =>
      cases same
      exact absurd met refused
    | goes _ left => exact ih left (List.cons.inj same).2

/-- A read that goes well is one exchange, and what it delivers is accepted. -/
theorem Follows.read_inv {label : κ} {count : Nat} {timeout : UInt32} {accepts : List UInt8 → Prop}
    (follows : Follows [.read label count timeout accepts] begun none) :
    ∃ delivery : Delivery, begun = [⟨.read count timeout, delivery⟩] ∧
      delivery.count = some count ∧ accepts delivery.bytes := by
  cases follows with
  | goes met left =>
    cases left
    exact ⟨_, rfl, met⟩

end Follows

/-- Where an exchange stops that has this result. -/
def stopIf {κ ε α : Type} (label : κ) : Except ε α → Option κ
  | .ok _ => none
  | .error _ => some label

namespace Link

variable {κ : Type}

/-- The calls that send `data`: the write and, on a half-duplex line, the drop of its echo. -/
def sending (link : Link) (label : κ) (data : List UInt8) : List (Step κ) :=
  .write label data link.timeout ::
    if link.duplex = .half then [.skip label data.length link.timeout] else []

section Sending

variable {link : Link} {label : κ} {data : List UInt8} {exchanges : List SerialExchange}
  {stop : Option κ}

/-- Sending bytes is one write, and at most one drop after it. -/
theorem sending_inv (follows : Follows (link.sending label data) exchanges stop) :
    ∃ written rest, exchanges = ⟨.write data link.timeout, written⟩ :: rest ∧
      (rest = [] ∨ ∃ dropped, rest = [⟨.skip data.length link.timeout, dropped⟩]) := by
  unfold sending at follows
  cases follows with
  | cut refused => exact ⟨_, [], rfl, .inl rfl⟩
  | goes met left =>
    split at left
    · cases left with
      | cut refused => exact ⟨_, _, rfl, .inr ⟨_, rfl⟩⟩
      | goes gone done =>
        cases done
        exact ⟨_, _, rfl, .inr ⟨_, rfl⟩⟩
    · cases left
      exact ⟨_, [], rfl, .inl rfl⟩

theorem deliveries_sending (follows : Follows (link.sending label data) exchanges stop) :
    deliveries exchanges = [] := by
  obtain ⟨written, rest, rfl, rfl | ⟨dropped, rfl⟩⟩ := sending_inv follows
  · rfl
  · rfl

end Sending

theorem send_follows {link : Link} {data : List UInt8} {exchanges : List SerialExchange}
    {result : Except LinkError Unit} (label : κ) (some_data : data ≠ [])
    (h : Program.Leads (link.send data) exchanges (.done result)) :
    Follows (link.sending label data) exchanges (stopIf label result) := by
  unfold send at h
  obtain ⟨written, rest, rfl, sent⟩ := h.ask_inv
  cases written with
  | none =>
    obtain ⟨rfl, same⟩ := sent.done_inv
    cases same
    exact .cut (by simp [Step.write])
  | some count =>
    simp only at sent
    split at sent
    · next full =>
      have met : (Step.write label data link.timeout).meets (some count) := congrArg some full
      split at sent
      · next echoed =>
        -- The echo of a half-duplex line is still to be dropped.
        rw [sending, if_pos echoed.1]
        unfold dropEcho at sent
        obtain ⟨dropped, rest, rfl, echo⟩ := sent.ask_inv
        cases dropped with
        | none =>
          obtain ⟨rfl, same⟩ := echo.done_inv
          cases same
          exact .goes met (.cut (by simp [Step.skip]))
        | some discarded =>
          obtain ⟨rfl, same⟩ := echo.done_inv
          cases same
          refine .goes met ?_
          split
          · next gone => exact .goes (congrArg some gone) .finished
          · next short => exact .cut (fun gone => short (Option.some.inj gone))
      · next silent =>
        have full_duplex : link.duplex ≠ .half := fun half => silent ⟨half, some_data⟩
        obtain ⟨rfl, same⟩ := sent.done_inv
        cases same
        rw [sending, if_neg full_duplex]
        exact .goes met .finished
    · next short =>
      obtain ⟨rfl, same⟩ := sent.done_inv
      cases same
      exact .cut (fun met => short (Option.some.inj met))

/-- A receive is one read, and it succeeds if the count is the one asked for. -/
theorem receive_leads {link : Link} {count : Nat} {exchanges : List SerialExchange}
    {reception : Reception} (h : Program.Leads (link.receive count) exchanges (.done reception)) :
    ∃ delivery : Delivery, exchanges = [⟨.read count link.timeout, delivery⟩] ∧
      reception.bytes = delivery.bytes ∧
      (reception.result = .ok () ↔ delivery.count = some count) := by
  unfold receive at h
  obtain ⟨delivery, rest, rfl, ended⟩ := h.ask_inv
  obtain ⟨rfl, same⟩ := ended.done_inv
  cases same
  refine ⟨delivery, rfl, rfl, ?_⟩
  cases delivery.count with
  | none => simp
  | some got =>
    by_cases full : got = count
    · simp [full]
    · simp [full]

end Link
end SplitKeyboard
