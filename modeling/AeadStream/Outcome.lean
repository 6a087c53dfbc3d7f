import AeadStream.Event

/-!
# Outcomes

A call on something that has a state ends in three things: its result, which may be a fault, the
state it leaves, and what it reported. A failed call leaves a state too, for what was read or
written before the failure stays read or written.
-/

namespace AeadStream

/-- **The outcome** of a call that may fail with an `ε`, on a state `σ`. -/
structure Outcome (ε σ α : Type) where
  /-- the value, or why there is none -/
  result : Except ε α
  /-- the state afterwards -/
  state : σ
  /-- what was reported, in order -/
  events : List Event := []

namespace Outcome

variable {ε σ α : Type}

/-- An outcome of which the result is known. -/
theorem eq_of_result {o : Outcome ε σ α} {result : Except ε α} (h : o.result = result) :
    o = ⟨result, o.state, o.events⟩ := by
  rw [← h]

/-- The same outcome with events reported before it. -/
def after (events : List Event) (o : Outcome ε σ α) : Outcome ε σ α :=
  { o with events := events ++ o.events }

@[simp] theorem result_after (events : List Event) (o : Outcome ε σ α) :
    (o.after events).result = o.result := rfl

@[simp] theorem state_after (events : List Event) (o : Outcome ε σ α) :
    (o.after events).state = o.state := rfl

@[simp] theorem events_after (events : List Event) (o : Outcome ε σ α) :
    (o.after events).events = events ++ o.events := rfl

end Outcome

end AeadStream
