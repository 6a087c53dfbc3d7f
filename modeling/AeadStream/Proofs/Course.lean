import AeadStream.Outcome

/-!
# Courses of calls

A course is a sequence of calls on one state, each made on the state that the one before it left,
whatever came of that one. What holds at the start and is kept by each single call holds after
every course, and what is kept may speak of all outcomes so far (`Course.induction`).
-/

namespace AeadStream

namespace Outcome

variable {ε σ τ α β : Type}

/-- The same outcome with another value. -/
def map (f : α → β) (o : Outcome ε σ α) : Outcome ε σ β := ⟨o.result.map f, o.state, o.events⟩

@[simp] theorem result_map (f : α → β) (o : Outcome ε σ α) :
    (o.map f).result = o.result.map f := rfl

@[simp] theorem state_map (f : α → β) (o : Outcome ε σ α) : (o.map f).state = o.state := rfl

/-- The same outcome with another state. -/
def mapState (f : σ → τ) (o : Outcome ε σ α) : Outcome ε τ α := ⟨o.result, f o.state, o.events⟩

end Outcome

namespace Course

variable {ε σ α γ : Type}

/-- **The outcomes** of calls made one after the other. -/
def outcomes (call : γ → σ → Outcome ε σ α) (s : σ) : List γ → List (Outcome ε σ α)
  | [] => []
  | c :: cs => call c s :: outcomes call (call c s).state cs

/-- **The state** that calls made one after the other leave. -/
def state (call : γ → σ → Outcome ε σ α) (s : σ) : List γ → σ
  | [] => s
  | c :: cs => state call (call c s).state cs

/-- The results of calls made one after the other. -/
def results (call : γ → σ → Outcome ε σ α) (s : σ) (cs : List γ) : List (Except ε α) :=
  (outcomes call s cs).map Outcome.result

variable {call : γ → σ → Outcome ε σ α} {s : σ}

@[simp] theorem outcomes_nil : outcomes call s [] = [] := rfl

@[simp] theorem outcomes_cons (c : γ) (cs : List γ) :
    outcomes call s (c :: cs) = call c s :: outcomes call (call c s).state cs := rfl

@[simp] theorem state_nil : state call s [] = s := rfl

@[simp] theorem state_cons (c : γ) (cs : List γ) :
    state call s (c :: cs) = state call (call c s).state cs := rfl

@[simp] theorem results_cons (c : γ) (cs : List γ) :
    results call s (c :: cs) = (call c s).result :: results call (call c s).state cs := rfl

@[simp] theorem length_results (cs : List γ) : (results call s cs).length = cs.length := by
  induction cs generalizing s with
  | nil => rfl
  | cons c cs ih => exact congrArg (· + 1) ih

theorem state_append (front back : List γ) :
    state call s (front ++ back) = state call (state call s front) back := by
  induction front generalizing s with
  | nil => rfl
  | cons c cs ih => exact ih

theorem results_append (front back : List γ) :
    results call s (front ++ back) =
      results call s front ++ results call (state call s front) back := by
  induction front generalizing s with
  | nil => rfl
  | cons c cs ih => exact congrArg ((call c s).result :: ·) ih

/-- **Induction on a course.** What holds before the first call and is kept by every call, given
the outcomes so far, holds after all of them. -/
theorem induction {Inv : List (Outcome ε σ α) → σ → Prop} (start : Inv [] s)
    (step : ∀ done s c, Inv done s → Inv (done ++ [call c s]) (call c s).state) (cs : List γ) :
    Inv (outcomes call s cs) (state call s cs) := by
  -- the outcomes so far have to be free for the next call to be added to them
  have onward : ∀ (cs : List γ) (done : List (Outcome ε σ α)) (s : σ), Inv done s →
      Inv (done ++ outcomes call s cs) (state call s cs) := by
    intro cs
    induction cs with
    | nil =>
      intro done s h
      rwa [outcomes_nil, List.append_nil]
    | cons c cs ih =>
      intro done s h
      have hrest := ih (done ++ [call c s]) (call c s).state (step done s c h)
      rwa [List.append_assoc, List.singleton_append] at hrest
  exact onward cs [] s start

end Course

end AeadStream
