import SplitKeyboard.Proofs.Transcript

/-!
Two runs side by side. Two programs that start in twin states are compared by their results, by the
states that they end in, and by those of their exchanges that are watched. A result may be broken:
then the states may have gone astray, and what comes next has to cope with that.
-/
namespace SplitKeyboard.Program

variable {Request : Type} {Reply : Request → Type} {α β γ δ ω σ : Type}

/-- What is compared of two runs over the same surroundings. -/
structure Comparison (Reply : Request → Type) (ω σ : Type) where
  answer : (request : Request) → σ → Reply request × σ
  watch : Exchange Reply → Option ω
  twins : σ → σ → Prop
  astray : σ → σ → Prop
  astray_of_twins : ∀ {s t}, twins s t → astray s t

/-- From states that are related as `start` says, the programs show the same and end with related
results, in twin states unless the result is broken. -/
structure Parallel (compare : Comparison Reply ω σ) (start : σ → σ → Prop) (related : α → β → Prop)
    (broken : α → Prop) (p : Program Request Reply α) (q : Program Request Reply β) : Prop where
  results : ∀ {s t}, start s t → related (p.run compare.answer s).1 (q.run compare.answer t).1
  twins : ∀ {s t}, start s t → ¬ broken (p.run compare.answer s).1 →
    compare.twins (p.run compare.answer s).2 (q.run compare.answer t).2
  astray : ∀ {s t}, start s t →
    compare.astray (p.run compare.answer s).2 (q.run compare.answer t).2
  shows : ∀ {s t}, start s t → (q.trace compare.answer t).filterMap compare.watch =
    (p.trace compare.answer s).filterMap compare.watch

variable {compare : Comparison Reply ω σ} {start : σ → σ → Prop} {related : α → β → Prop}
  {broken : α → Prop} {related' : γ → δ → Prop} {broken' : γ → Prop}
  {p : Program Request Reply α} {q : Program Request Reply β} {a : α} {b : β}
  {f : α → Program Request Reply γ} {g : β → Program Request Reply δ}

/-- A result that is an error. -/
def Failed {ε α : Type} : Except ε α → Prop
  | .ok _ => False
  | .error _ => True

/-- The same result, except that errors have other names. -/
def Renamed {ε ε' : Type} (rename : ε → ε') (first : Except ε α) (second : Except ε' α) : Prop :=
  second = first.mapError rename

theorem renamed_id {ε : Type} (result : Except ε α) : Renamed id result result := by
  cases result with
  | ok a => rfl
  | error error => rfl

namespace Parallel

theorem done (alike : related a b) :
    Parallel compare compare.twins related broken (.done a) (.done b) :=
  ⟨fun _ => alike, fun twins _ => twins, compare.astray_of_twins, fun _ => rfl⟩

/-- States that have gone astray may stay so under a broken result. -/
theorem done_broken (alike : related a b) (breaks : broken a) :
    Parallel compare compare.astray related broken (.done a) (.done b) :=
  ⟨fun _ => alike, fun _ whole => absurd breaks whole, fun astray => astray, fun _ => rfl⟩

/-- Both programs ask for the same and get the same reply. -/
theorem ask {middle : σ → σ → Prop} {request : Request}
    {next : Reply request → Program Request Reply α} {next' : Reply request → Program Request Reply β}
    (same : ∀ {s t}, start s t → (compare.answer request t).1 = (compare.answer request s).1 ∧
      middle (compare.answer request s).2 (compare.answer request t).2)
    (go : ∀ reply, Parallel compare middle related broken (next reply) (next' reply)) :
    Parallel compare start related broken (.ask request next) (.ask request next') := by
  constructor
  case results =>
    intro s t begun
    obtain ⟨alike, still⟩ := same begun
    have rest := (go (compare.answer request s).1).results still
    simpa only [run, alike] using rest
  case twins =>
    intro s t begun whole
    obtain ⟨alike, still⟩ := same begun
    have rest := (go (compare.answer request s).1).twins still whole
    simpa only [run, alike] using rest
  case astray =>
    intro s t begun
    obtain ⟨alike, still⟩ := same begun
    have rest := (go (compare.answer request s).1).astray still
    simpa only [run, alike] using rest
  case shows =>
    intro s t begun
    obtain ⟨alike, still⟩ := same begun
    have rest := (go (compare.answer request s).1).shows still
    simp only [trace, alike, List.filterMap_cons, rest]

/-- Two programs in a row: what follows a broken result begins in states that are astray. -/
theorem bind (first : Parallel compare start related broken p q)
    (go : ∀ a b, related a b → ¬ broken a →
      Parallel compare compare.twins related' broken' (f a) (g b))
    (stop : ∀ a b, related a b → broken a →
      Parallel compare compare.astray related' broken' (f a) (g b)) :
    Parallel compare start related' broken' (p.bind f) (q.bind g) := by
  constructor
  case results =>
    intro s t begun
    rw [run_bind, run_bind]
    by_cases failed : broken (p.run compare.answer s).1
    · exact (stop _ _ (first.results begun) failed).results (first.astray begun)
    · exact (go _ _ (first.results begun) failed).results (first.twins begun failed)
  case twins =>
    intro s t begun whole
    rw [run_bind] at whole
    rw [run_bind, run_bind]
    by_cases failed : broken (p.run compare.answer s).1
    · exact (stop _ _ (first.results begun) failed).twins (first.astray begun) whole
    · exact (go _ _ (first.results begun) failed).twins (first.twins begun failed) whole
  case astray =>
    intro s t begun
    rw [run_bind, run_bind]
    by_cases failed : broken (p.run compare.answer s).1
    · exact (stop _ _ (first.results begun) failed).astray (first.astray begun)
    · exact (go _ _ (first.results begun) failed).astray (first.twins begun failed)
  case shows =>
    intro s t begun
    rw [trace_bind, trace_bind, List.filterMap_append, List.filterMap_append, first.shows begun]
    congr 1
    by_cases failed : broken (p.run compare.answer s).1
    · exact (stop _ _ (first.results begun) failed).shows (first.astray begun)
    · exact (go _ _ (first.results begun) failed).shows (first.twins begun failed)

/-- The case of a result that may be an error, which the second program may call by another name. -/
theorem bind_except {ε ε' : Type} {rename : ε → ε'} {p : Program Request Reply (Except ε α)}
    {q : Program Request Reply (Except ε' α)} {f : Except ε α → Program Request Reply γ}
    {g : Except ε' α → Program Request Reply δ}
    (first : Parallel compare start (Renamed rename) Failed p q)
    (go : ∀ a, Parallel compare compare.twins related' broken' (f (.ok a)) (g (.ok a)))
    (stop : ∀ error, Parallel compare compare.astray related' broken' (f (.error error))
      (g (.error (rename error)))) :
    Parallel compare start related' broken' (p.bind f) (q.bind g) := by
  apply first.bind
  · rintro result _ rfl whole
    cases result with
    | error error => exact absurd trivial whole
    | ok a => exact go a
  · rintro result _ rfl failed
    cases result with
    | error error => exact stop error
    | ok a => exact failed.elim

end Parallel
end SplitKeyboard.Program
