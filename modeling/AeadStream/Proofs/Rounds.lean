import AeadStream.Outcome

/-!
# Loops, round by round

A loop is what one round of it does to a state: it goes on with another state, or it ends with a
value. How many rounds there are is bounded by what each of them uses up (`Rounds.length_le`), and
what each of them keeps holds in all of them (`Rounds.keeps`).
-/

namespace AeadStream

/-- **What a round comes to:** another one, or the end. -/
inductive Round (σ α : Type)
  | again (s : σ)
  | done (a : α)

/-- **A loop that ends.** The rounds that begin in the states `passed` go on, one after the other,
and the round that begins in `last` ends the loop with `a`. So the loop takes `passed.length + 1`
rounds. -/
inductive Rounds {σ α : Type} (round : σ → Round σ α) : σ → List σ → σ → α → Prop
  | last {s : σ} {a : α} (hround : round s = .done a) : Rounds round s [] s a
  | onward {s s' last : σ} {a : α} {passed : List σ} (hround : round s = .again s')
      (hrest : Rounds round s' passed last a) : Rounds round s (s :: passed) last a

namespace Rounds

variable {σ α : Type} {round : σ → Round σ α} {s last : σ} {passed : List σ} {a : α}

/-- The last round ends the loop. -/
theorem ended (h : Rounds round s passed last a) : round last = .done a := by
  induction h with
  | last hround => exact hround
  | onward _ _ ih => exact ih

/-- **Each round uses something up,** so there is a bound on their number. -/
theorem length_le (left : σ → Nat) (unit : Nat)
    (huse : ∀ s s', round s = .again s' → left s' + unit ≤ left s)
    (h : Rounds round s passed last a) : passed.length * unit + left last ≤ left s := by
  induction h with
  | last => simp
  | onward hround _ ih =>
    have hle := huse _ _ hround
    rw [List.length_cons, Nat.succ_mul]
    omega

/-- **What each round keeps** holds in all of them. -/
theorem keeps (Inv : σ → Prop) (hkeep : ∀ s s', round s = .again s' → Inv s → Inv s')
    (h : Rounds round s passed last a) (hs : Inv s) : ∀ s' ∈ passed ++ [last], Inv s' := by
  induction h with
  | last => exact List.forall_mem_singleton.mpr hs
  | onward hround _ ih => exact List.forall_mem_cons.mpr ⟨hs, ih (hkeep _ _ hround hs)⟩

end Rounds

/-- Events before no others are all there are. -/
theorem Outcome.after_nil {ε σ α : Type} (o : Outcome ε σ α) : o.after [] = o := rfl

/-- Events are reported before those that are before an outcome. -/
theorem Outcome.after_after {ε σ α : Type} (events later : List Event) (o : Outcome ε σ α) :
    (o.after later).after events = o.after (events ++ later) := by
  rw [after, after, after, List.append_assoc]

end AeadStream
