import SplitKeyboard.Program

/-!
Transcripts of programs. A transcript lists requests with the replies that they got, and leads from
a program to what is left of it. Nothing is assumed about who replies, so a fact about every
transcript of a program is a fact about every run of it, in any surroundings.
-/
namespace SplitKeyboard.Program

variable {Request : Type} {Reply : Request → Type} {α β σ : Type}

abbrev Exchange (Reply : Request → Type) := (request : Request) × Reply request

/-- With the replies of the transcript, the first program makes its requests, one after the other,
and the last program is what is left. -/
inductive Leads :
    Program Request Reply α → List (Exchange Reply) → Program Request Reply α → Prop
  | stay (p) : Leads p [] p
  | ask {request next reply rest q} :
      Leads (next reply) rest q → Leads (.ask request next) (⟨request, reply⟩ :: rest) q

/-- A run and its trace are one transcript that leads to the result. -/
theorem leads_trace (answer : (request : Request) → σ → Reply request × σ)
    (p : Program Request Reply α) (s : σ) :
    Leads p (p.trace answer s) (.done (p.run answer s).1) := by
  induction p generalizing s with
  | done value => exact .stay _
  | ask request next ih => exact .ask (ih _ _)

theorem Leads.append {p q r : Program Request Reply α} {first last : List (Exchange Reply)}
    (begun : Leads p first q) (ended : Leads q last r) : Leads p (first ++ last) r := by
  induction begun with
  | stay p => exact ended
  | ask _ ih => exact .ask (ih ended)

theorem Leads.bind {p q : Program Request Reply α} {exchanges : List (Exchange Reply)}
    (h : Leads p exchanges q) (f : α → Program Request Reply β) :
    Leads (p.bind f) exchanges (q.bind f) := by
  induction h with
  | stay p => exact .stay _
  | ask _ ih => exact .ask ih

/-- Two programs in a row: the transcript of the first, then that of the second. -/
theorem Leads.seq {p : Program Request Reply α} {a : α} {f : α → Program Request Reply β}
    {q : Program Request Reply β} {first last : List (Exchange Reply)}
    (begun : Leads p first (.done a)) (ended : Leads (f a) last q) :
    Leads (p.bind f) (first ++ last) q :=
  (begun.bind f).append ended

/-- What a finished pair of programs said splits into what each of them said. -/
theorem Leads.of_bind {p : Program Request Reply α} {f : α → Program Request Reply β}
    {exchanges : List (Exchange Reply)} {b : β} (h : Leads (p.bind f) exchanges (.done b)) :
    ∃ first last a, exchanges = first ++ last ∧ Leads p first (.done a) ∧
      Leads (f a) last (.done b) := by
  induction p generalizing exchanges with
  | done a => exact ⟨[], exchanges, a, rfl, .stay _, h⟩
  | ask request next ih =>
    cases h with
    | ask h =>
      obtain ⟨first, last, a, rfl, begun, ended⟩ := ih _ h
      exact ⟨_ :: first, last, a, rfl, .ask begun, ended⟩

theorem Leads.done_inv {a : α} {exchanges : List (Exchange Reply)} {q : Program Request Reply α}
    (h : Leads (.done a) exchanges q) : exchanges = [] ∧ q = .done a := by
  cases h with
  | stay => exact ⟨rfl, rfl⟩

/-- A program that asks next cannot be finished: its transcript begins with that request. -/
theorem Leads.ask_inv {request : Request} {next : Reply request → Program Request Reply α}
    {exchanges : List (Exchange Reply)} {a : α} (h : Leads (.ask request next) exchanges (.done a)) :
    ∃ reply rest, exchanges = ⟨request, reply⟩ :: rest ∧ Leads (next reply) rest (.done a) := by
  cases h with
  | ask h => exact ⟨_, _, rfl, h⟩

theorem Leads.cons_inv {p q : Program Request Reply α} {request : Request} {reply : Reply request}
    {rest : List (Exchange Reply)} (h : Leads p (⟨request, reply⟩ :: rest) q) :
    ∃ next, p = .ask request next ∧ Leads (next reply) rest q := by
  cases h with
  | ask h => exact ⟨_, rfl, h⟩

theorem Leads.nil_inv {p q : Program Request Reply α} (h : Leads p [] q) : p = q := by
  cases h with
  | stay => rfl

/-- Any program can be brought to its end by some replies. -/
theorem exists_leads_done [∀ request, Nonempty (Reply request)] (p : Program Request Reply α) :
    ∃ exchanges a, Leads p exchanges (.done a) := by
  induction p with
  | done a => exact ⟨[], a, .stay _⟩
  | ask request next ih =>
    obtain ⟨reply⟩ := (inferInstance : Nonempty (Reply request))
    obtain ⟨exchanges, a, h⟩ := ih reply
    exact ⟨_, a, .ask h⟩

section Beside

variable {Other : Type} {OtherReply : Other → Type}

/-- An exchange of a program that is carried out beside requests of a second kind. -/
def Exchange.beside (exchange : Exchange Reply) : Exchange (EitherReply Reply OtherReply) :=
  ⟨.inl exchange.1, exchange.2⟩

theorem Leads.beside {p q : Program Request Reply α} {exchanges : List (Exchange Reply)}
    (h : Leads p exchanges q) :
    Leads (p.beside OtherReply) (exchanges.map Exchange.beside) (q.beside OtherReply) := by
  induction h with
  | stay p => exact .stay _
  | ask _ ih => exact .ask ih

theorem Leads.of_beside {p : Program Request Reply α}
    {exchanges : List (Exchange (EitherReply Reply OtherReply))}
    {q : Program (Request ⊕ Other) (EitherReply Reply OtherReply) α}
    (h : Leads (p.beside OtherReply) exchanges q) :
    ∃ own left, exchanges = own.map Exchange.beside ∧ q = left.beside OtherReply ∧
      Leads p own left := by
  induction p generalizing exchanges with
  | done a =>
    obtain ⟨rfl, rfl⟩ := h.done_inv
    exact ⟨[], .done a, rfl, rfl, .stay _⟩
  | ask request next ih =>
    cases h with
    | stay => exact ⟨[], .ask request next, rfl, rfl, .stay _⟩
    | ask h =>
      obtain ⟨own, left, rfl, rfl, same⟩ := ih _ h
      exact ⟨⟨request, _⟩ :: own, left, rfl, rfl, .ask same⟩

end Beside

/-- The surroundings give exactly the replies of the transcript, and are then in the last state. -/
def Answers (answer : (request : Request) → σ → Reply request × σ) :
    List (Exchange Reply) → σ → σ → Prop
  | [], s, last => last = s
  | ⟨request, reply⟩ :: rest, s, last =>
    (answer request s).1 = reply ∧ Answers answer rest (answer request s).2 last

section Answers

variable {answer : (request : Request) → σ → Reply request × σ}

theorem Answers.append {first last : List (Exchange Reply)} {s middle t : σ}
    (begun : Answers answer first s middle) (ended : Answers answer last middle t) :
    Answers answer (first ++ last) s t := by
  induction first generalizing s with
  | nil =>
    have same : middle = s := begun
    exact same ▸ ended
  | cons exchange first ih => exact ⟨begun.1, ih begun.2⟩

/-- Surroundings that answer as a transcript says make the program's run that transcript. -/
theorem Leads.run_eq {p : Program Request Reply α} {exchanges : List (Exchange Reply)} {a : α}
    {s t : σ} (h : Leads p exchanges (.done a)) (answers : Answers answer exchanges s t) :
    p.run answer s = (a, t) ∧ p.trace answer s = exchanges := by
  induction p generalizing exchanges s with
  | done value =>
    obtain ⟨rfl, same⟩ := h.done_inv
    have state : t = s := answers
    cases same
    exact ⟨congrArg (Prod.mk _) state.symm, rfl⟩
  | ask request next ih =>
    obtain ⟨reply, rest, rfl, left⟩ := h.ask_inv
    obtain ⟨rfl, answers⟩ := answers
    obtain ⟨ran, traced⟩ := ih _ left answers
    exact ⟨ran, congrArg (List.cons _) traced⟩

end Answers
end SplitKeyboard.Program
