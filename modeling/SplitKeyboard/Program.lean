/-!
Programs as trees of requests. A program either has its answer or asks its surroundings for
something and goes on with the reply. The same program can then be run to the end over any
surroundings, stopped at a request that cannot be answered yet, or have its calls counted.
-/
namespace SplitKeyboard

/-- A finite interaction that ends with an `α`. The type of each reply depends on its request. -/
inductive Program (Request : Type) (Reply : Request → Type) (α : Type) where
  | done (value : α)
  | ask (request : Request) (next : Reply request → Program Request Reply α)

namespace Program

variable {Request : Type} {Reply : Request → Type} {α β σ : Type}

def call (request : Request) : Program Request Reply (Reply request) := .ask request .done

def bind : Program Request Reply α → (α → Program Request Reply β) → Program Request Reply β
  | .done value, rest => rest value
  | .ask request next, rest => .ask request fun reply => (next reply).bind rest

instance : Monad (Program Request Reply) where
  pure := .done
  bind := .bind

/-- Runs a program over surroundings with state `σ` that answer every request. -/
def run (answer : (request : Request) → σ → Reply request × σ) :
    Program Request Reply α → σ → α × σ
  | .done value, s => (value, s)
  | .ask request next, s =>
    let (reply, s) := answer request s
    (next reply).run answer s

/-- Runs a program as far as its requests are answered: what is left of it starts with the first
request that was not. -/
def advance (answer : (request : Request) → σ → Option (Reply request × σ)) :
    Program Request Reply α → σ → Program Request Reply α × σ
  | .done value, s => (.done value, s)
  | .ask request next, s =>
    match answer request s with
    | some (reply, s) => (next reply).advance answer s
    | none => (.ask request next, s)

/-- Goes on with a program that was stopped at its first request. `answer` is told whether a request
has been waiting since then, and that is the first one alone. -/
def resume (answer : (waited : Bool) → (request : Request) → σ → Option (Reply request × σ)) :
    Program Request Reply α → σ → Program Request Reply α × σ
  | .done value, s => (.done value, s)
  | .ask request next, s =>
    match answer true request s with
    | some (reply, s) => (next reply).advance (answer false) s
    | none => (.ask request next, s)

/-- The requests of a run, in order, each with the reply that it got. -/
def trace (answer : (request : Request) → σ → Reply request × σ) :
    Program Request Reply α → σ → List ((request : Request) × Reply request)
  | .done _, _ => []
  | .ask request next, s =>
    let (reply, s) := answer request s
    ⟨request, reply⟩ :: (next reply).trace answer s

/-- Carries out each request of a program by a program over more basic requests. -/
def refine {Basic : Type} {BasicReply : Basic → Type}
    (serve : (request : Request) → Program Basic BasicReply (Reply request)) :
    Program Request Reply α → Program Basic BasicReply α
  | .done value => .done value
  | .ask request next => (serve request).bind fun reply => (next reply).refine serve

/-- Carries out each request by a program over more basic requests that also keeps a state, which
goes from one request to the next. -/
def refineState {Basic : Type} {BasicReply : Basic → Type}
    (serve : (request : Request) → σ → Program Basic BasicReply (Reply request × σ)) :
    Program Request Reply α → σ → Program Basic BasicReply (α × σ)
  | .done value, s => .done (value, s)
  | .ask request next, s =>
    (serve request s).bind fun (reply, s) => (next reply).refineState serve s

/-- The replies when two kinds of request are offered side by side. -/
abbrev EitherReply {Left Right : Type} (left : Left → Type) (right : Right → Type) :
    Left ⊕ Right → Type
  | .inl request => left request
  | .inr request => right request

/-- A program that could also make requests of a second kind, and makes none. -/
def beside {Other : Type} (OtherReply : Other → Type) (program : Program Request Reply α) :
    Program (Request ⊕ Other) (EitherReply Reply OtherReply) α :=
  program.refine fun request => .ask (.inl request) .done

/-- Carries out the requests of the first kind by more basic ones and passes on the others. -/
def refineLeft {Other Basic : Type} {OtherReply : Other → Type} {BasicReply : Basic → Type}
    (serve : (request : Request) → Program Basic BasicReply (Reply request)) :
    Program (Request ⊕ Other) (EitherReply Reply OtherReply) α →
      Program (Basic ⊕ Other) (EitherReply BasicReply OtherReply) α :=
  refine fun
    | .inl request => (serve request).beside OtherReply
    | .inr request => .ask (.inr request) .done

theorem run_bind (answer : (request : Request) → σ → Reply request × σ)
    (program : Program Request Reply α) (rest : α → Program Request Reply β) (s : σ) :
    (program.bind rest).run answer s =
      (rest (program.run answer s).1).run answer (program.run answer s).2 := by
  induction program generalizing s with
  | done value => rfl
  | ask request next ih => exact ih _ _

theorem trace_bind (answer : (request : Request) → σ → Reply request × σ)
    (program : Program Request Reply α) (rest : α → Program Request Reply β) (s : σ) :
    (program.bind rest).trace answer s = program.trace answer s ++
      (rest (program.run answer s).1).trace answer (program.run answer s).2 := by
  induction program generalizing s with
  | done value => rfl
  | ask request next ih => simp only [bind, trace, List.cons_append, run]; congr 1; exact ih _ _

end Program
end SplitKeyboard
