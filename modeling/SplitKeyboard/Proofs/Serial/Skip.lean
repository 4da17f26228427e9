import Mathlib.Algebra.GroupWithZero.Nat
import Mathlib.Tactic.Common
import SplitKeyboard.Proofs.Transcript
import SplitKeyboard.Serial.Skip

/-!
The account of a skip that reads: what it asks for, how long it lets each read wait, and what it
reports. The shares of the time are whole milliseconds, rounded down one after the other, and yet
nothing of the time is lost when all the bytes come.
-/
namespace SplitKeyboard

/-- A read with its reply: the count that came, or none on a fault. -/
abbrev ReadExchange := Program.Exchange fun _ : ReadRequest => Option Nat

namespace ReadExchange

def Full (call : ReadExchange) : Prop := call.2 = some call.1.count

/-- No read brings more than it asked for. -/
def Honest (call : ReadExchange) : Prop := ∀ got, call.2 = some got → got ≤ call.1.count

end ReadExchange

def requested (calls : List ReadExchange) : Nat := (calls.map fun call => call.1.count).sum

/-- The bytes that came. A fault brings none. -/
def received (calls : List ReadExchange) : Nat := (calls.map fun call => call.2.getD 0).sum

/-- The milliseconds that were handed out. -/
def handedOut (calls : List ReadExchange) : Nat := (calls.map fun call => call.1.timeout.toNat).sum

/-- A read of a skip of `n` bytes in `budget` milliseconds, after others. Every operation on words is
exact here: there is something to divide by, something left of the budget, and room for the
product in 64 bits and for the quotient in 32. -/
structure Asks (n : Nat) (budget : UInt32) (before : List ReadExchange) (call : ReadExchange) :
    Prop where
  full : ∀ earlier ∈ before, earlier.Full
  left : received before < n
  count : call.1.count = min 16 (n - received before)
  unspent : handedOut before ≤ budget.toNat
  product : (budget.toNat - handedOut before) * call.1.count < UInt64.size
  share : call.1.timeout.toNat =
    (budget.toNat - handedOut before) * call.1.count / (n - received before)

/-- What a skip of `n` bytes in `budget` milliseconds does. -/
structure SkipAccount (n : Nat) (budget : UInt32) (calls : List ReadExchange)
    (result : Option Nat) : Prop where
  asks : ∀ before call after, calls = before ++ call :: after → Asks n budget before call
  goesOn : (∀ call ∈ calls, call.Full) → received calls = n
  requested_le : requested calls ≤ n
  length_le : calls.length ≤ (n + 15) / 16
  fault : (∃ call ∈ calls, call.2 = none) → result = none
  count : (∀ call ∈ calls, call.2 ≠ none) → result = some (received calls)
  handedOut_le : handedOut calls ≤ budget.toNat
  handedOut_eq : 0 < n → result = some n → handedOut calls = budget.toNat

section Share

variable {chunk left : Nat} {budget : UInt32}

theorem share_le (within : chunk ≤ left) :
    budget.toNat * chunk / left ≤ budget.toNat := by
  apply Nat.div_le_of_le_mul
  rw [Nat.mul_comm left]
  exact Nat.mul_le_mul_left _ within

/-- A share fits into a word, for it is a part of one. -/
theorem toNat_chunkShare (within : chunk ≤ left) :
    (chunkShare budget chunk left).toNat = budget.toNat * chunk / left := by
  apply UInt32.toNat_ofNat_of_lt'
  exact Nat.lt_of_le_of_lt (share_le within) budget.toNat_lt

end Share

namespace SkipAccount

variable {n : Nat} {budget : UInt32} {call : ReadExchange} {calls : List ReadExchange}
  {result : Option Nat}

theorem nothing (budget : UInt32) : SkipAccount 0 budget [] (some 0) := by
  constructor
  case asks =>
    intro before call after split
    exact absurd split (by simp)
  case goesOn => exact fun _ => rfl
  case requested_le => exact Nat.le_refl 0
  case length_le => exact Nat.zero_le _
  case fault => exact fun ⟨_, member, _⟩ => absurd member List.not_mem_nil
  case count => exact fun _ => rfl
  case handedOut_le => exact Nat.zero_le _
  case handedOut_eq => exact fun more => absurd more (Nat.lt_irrefl 0)

theorem count_le (ask : Asks n budget [] call) : call.1.count ≤ n := by
  have count := ask.count
  have none_before : received [] = 0 := rfl
  omega

theorem timeout_le (ask : Asks n budget [] call) : call.1.timeout.toNat ≤ budget.toNat := by
  have share := ask.share
  have none_before : received [] = 0 := rfl
  have none_spent : handedOut [] = 0 := rfl
  rw [none_before, none_spent, Nat.sub_zero, Nat.sub_zero] at share
  rw [share]
  exact share_le (count_le ask)

/-- The first read that is not full is the last. -/
theorem last (ask : Asks n budget [] call) (honest : call.Honest) (stops : ¬ call.Full) :
    SkipAccount n budget [call] call.2 := by
  have some_left := ask.left
  have count_le := count_le ask
  constructor
  case asks =>
    intro before other after split
    cases before with
    | nil =>
      obtain ⟨rfl, _⟩ := List.cons.inj split
      exact ask
    | cons first before => exact absurd (List.cons.inj split).2 (by simp)
  case goesOn => exact fun all => absurd (all call (List.mem_singleton_self _)) stops
  case requested_le => simpa [requested] using count_le
  case length_le =>
    rw [List.length_singleton]
    omega
  case fault =>
    rintro ⟨other, member, failed⟩
    rwa [List.mem_singleton.mp member] at failed
  case count =>
    intro answered
    obtain ⟨got, reply⟩ := Option.ne_none_iff_exists'.mp (answered call (List.mem_singleton_self _))
    simp [received, reply]
  case handedOut_le => simpa [handedOut] using timeout_le ask
  case handedOut_eq =>
    intro _ whole
    have most := honest n whole
    have same : n = call.1.count := by omega
    exact absurd (whole.trans (congrArg some same)) stops

section Full

variable (ask : Asks n budget [] call)
include ask

/-- What is left of the budget is not wrapped around. -/
theorem toNat_rest :
    (budget - call.1.timeout).toNat = budget.toNat - call.1.timeout.toNat :=
  UInt32.toNat_sub_of_le _ _ (UInt32.le_iff_toNat_le.mpr (timeout_le ask))

/-- A read of the rest, seen from the start. -/
theorem asks_cons (full : call.Full) {before : List ReadExchange} {later : ReadExchange}
    (asks : Asks (n - call.1.count) (budget - call.1.timeout) before later) :
    Asks n budget (call :: before) later := by
  have came : received (call :: before) = call.1.count + received before := by
    simp [received, show call.2 = some call.1.count from full]
  have spent : handedOut (call :: before) = call.1.timeout.toNat + handedOut before := by
    simp [handedOut]
  have budget_rest := toNat_rest ask
  have timeout_le := timeout_le ask
  have count_le := count_le ask
  have left := asks.left
  have count := asks.count
  have unspent := asks.unspent
  have product := asks.product
  have share := asks.share
  have same_left : n - (call.1.count + received before) = n - call.1.count - received before := by
    omega
  have same_budget : budget.toNat - (call.1.timeout.toNat + handedOut before) =
      budget.toNat - call.1.timeout.toNat - handedOut before := by omega
  rw [budget_rest] at unspent product share
  constructor
  case full => exact List.forall_mem_cons.mpr ⟨full, asks.full⟩
  case left => omega
  case count => rw [came, same_left, count]
  case unspent => omega
  case product => rwa [spent, same_budget]
  case share => rwa [came, spent, same_left, same_budget]

/-- A full read is followed by a skip of the rest in the rest of the time. -/
theorem cons (full : call.Full)
    (account : SkipAccount (n - call.1.count) (budget - call.1.timeout) calls result) :
    SkipAccount n budget (call :: calls) (result.map (call.1.count + ·)) := by
  have came : received (call :: calls) = call.1.count + received calls := by
    simp [received, show call.2 = some call.1.count from full]
  have spent : handedOut (call :: calls) = call.1.timeout.toNat + handedOut calls := by
    simp [handedOut]
  have some_left := ask.left
  have count := ask.count
  have none_received : received [] = 0 := rfl
  have budget_rest := toNat_rest ask
  have timeout_le := timeout_le ask
  have count_le := count_le ask
  constructor
  case asks =>
    intro before later after split
    cases before with
    | nil =>
      obtain ⟨rfl, _⟩ := List.cons.inj split
      exact ask
    | cons first before =>
      obtain ⟨rfl, rest⟩ := List.cons.inj split
      exact asks_cons ask full (account.asks before later after rest)
  case goesOn =>
    intro all
    have rest := account.goesOn (List.forall_mem_cons.mp all).2
    omega
  case requested_le =>
    have rest := account.requested_le
    have asked : requested (call :: calls) = call.1.count + requested calls := by simp [requested]
    omega
  case length_le =>
    have rest := account.length_le
    rw [List.length_cons]
    omega
  case fault =>
    rintro ⟨failed, member, reply⟩
    rcases List.mem_cons.mp member with rfl | later
    · exact absurd (reply.symm.trans full) (by simp)
    · rw [account.fault ⟨failed, later, reply⟩, Option.map_none]
  case count =>
    intro answered
    rw [account.count (List.forall_mem_cons.mp answered).2, Option.map_some, came]
  case handedOut_le =>
    have rest := account.handedOut_le
    omega
  case handedOut_eq =>
    intro _ whole
    obtain ⟨got, rest_result, total⟩ := Option.map_eq_some_iff.mp whole
    by_cases last : n = call.1.count
    · -- The last chunk is owed the whole rest of the budget.
      have share := ask.share
      have none_before : handedOut [] = 0 := rfl
      rw [none_received, none_before, ← last, Nat.sub_zero, Nat.sub_zero,
        Nat.mul_div_cancel _ (by omega)] at share
      have rest := account.handedOut_le
      omega
    · have rest := account.handedOut_eq (by omega) (by rw [rest_result]; congr 1; omega)
      omega

end Full

end SkipAccount

/-- The first read of a skip. -/
theorem asks_first {n : Nat} (budget : UInt32) (some_left : 0 < n) (reply : Option Nat) :
    Asks n budget [] ⟨⟨min n skipChunk, chunkShare budget (min n skipChunk) n⟩, reply⟩ := by
  have small : budget.toNat * min n skipChunk < UInt64.size := by
    have few : min n skipChunk ≤ 16 := Nat.min_le_right _ _
    have words : UInt32.size * 16 ≤ UInt64.size := by decide
    calc budget.toNat * min n skipChunk
      _ ≤ budget.toNat * 16 := Nat.mul_le_mul_left _ few
      _ < UInt32.size * 16 := Nat.mul_lt_mul_of_pos_right budget.toNat_lt (by decide)
      _ ≤ UInt64.size := words
  constructor
  case full => exact List.forall_mem_nil _
  case left => exact some_left
  case count => exact Nat.min_comm _ _
  case unspent => exact Nat.zero_le _
  case product => exact small
  case share => exact toNat_chunkShare (Nat.min_le_left _ _)

/-- Whatever the reads bring, a skip keeps its account. -/
theorem skipByReading_keeps {n skipped : Nat} {budget : UInt32} {calls : List ReadExchange}
    {result : Option Nat} (honest : ∀ call ∈ calls, call.Honest)
    (h : Program.Leads (skipByReading n skipped budget) calls (.done result)) :
    ∃ own, result = own.map (skipped + ·) ∧ SkipAccount n budget calls own := by
  induction n using Nat.strongRecOn generalizing skipped budget calls result with
  | ind n ih =>
    rw [skipByReading] at h
    by_cases nothing : n = 0
    · rw [if_pos nothing] at h
      obtain ⟨rfl, same⟩ := h.done_inv
      cases same
      subst nothing
      exact ⟨some 0, rfl, .nothing budget⟩
    · rw [if_neg nothing] at h
      have some_left := Nat.pos_of_ne_zero nothing
      obtain ⟨reply, rest, rfl, left⟩ := h.ask_inv
      have ask := asks_first budget some_left reply
      obtain ⟨first, others⟩ := List.forall_mem_cons.mp honest
      cases reply with
      | none =>
        obtain ⟨rfl, same⟩ := left.done_inv
        cases same
        exact ⟨none, rfl, .last ask first (by simp [ReadExchange.Full])⟩
      | some got =>
        simp only at left
        split at left
        · next short =>
          obtain ⟨rfl, same⟩ := left.done_inv
          cases same
          refine ⟨some got, rfl, .last ask first ?_⟩
          intro full
          exact absurd (Option.some.inj full) (Nat.ne_of_lt short)
        · next enough =>
          have whole : got = min n skipChunk :=
            Nat.le_antisymm (first got rfl) (Nat.le_of_not_lt enough)
          subst whole
          have chunk_pos : 0 < min n skipChunk := Nat.lt_min.mpr ⟨some_left, by decide⟩
          obtain ⟨own, rfl, account⟩ := ih _ (Nat.sub_lt some_left chunk_pos) others left
          refine ⟨own.map (min n skipChunk + ·), ?_, account.cons ask rfl⟩
          rw [Option.map_map]
          congr 1
          funext total
          exact Nat.add_assoc _ _ _

/-- The replies of an honest device are honest throughout. -/
theorem honest_trace {σ α : Type} {answer : (request : ReadRequest) → σ → Option Nat × σ}
    (honest : ∀ request s got, (answer request s).1 = some got → got ≤ request.count)
    (p : Program ReadRequest (fun _ => Option Nat) α) (s : σ) :
    ∀ call ∈ p.trace answer s, ReadExchange.Honest call := by
  induction p generalizing s with
  | done value => exact List.forall_mem_nil _
  | ask request next ih =>
    exact List.forall_mem_cons.mpr ⟨honest request s, ih _ _⟩

/-- On any device whose reads bring no more than they ask for, a skip asks for no byte too many and
waits for no longer than one call may, for all of that time if every byte comes. -/
theorem skip_account {σ : Type} (answer : (request : ReadRequest) → σ → Option Nat × σ)
    (honest : ∀ request s got, (answer request s).1 = some got → got ≤ request.count) (s : σ)
    (n : Nat) (timeout : UInt32) :
    SkipAccount n timeout ((skipByReading n 0 timeout).trace answer s)
      ((skipByReading n 0 timeout).run answer s).1 := by
  have leads := Program.leads_trace answer (skipByReading n 0 timeout) s
  obtain ⟨own, same, account⟩ := skipByReading_keeps (honest_trace honest _ s) leads
  have unshifted : own.map (0 + ·) = own := by simp
  rwa [same, unshifted]

/-- Forty bytes asked of a device that has twenty-three. -/
theorem skip_account_short :
    let answer : (request : ReadRequest) → Nat → Option Nat × Nat :=
      fun request queued => (some (min request.count queued), queued - request.count)
    (∀ request s got, (answer request s).1 = some got → got ≤ request.count) ∧
      SkipAccount 40 50 ((skipByReading 40 0 50).trace answer 23)
        ((skipByReading 40 0 50).run answer 23).1 := by
  intro answer
  have honest : ∀ request s got, (answer request s).1 = some got → got ≤ request.count := by
    intro request s got reply
    cases reply
    exact Nat.min_le_left _ _
  exact ⟨honest, skip_account answer honest 23 40 50⟩

/-- Three chunks share fifty milliseconds, and the last gets what was rounded off before. -/
example : ((skipByReading 48 0 50).trace (fun request s => (some request.count, s)) ()).map
    (fun call => call.1.timeout) = [16, 17, 17] := by
  cbv

end SplitKeyboard
