import AeadStream.Bytes.Lemmas
import AeadStream.Proofs.Stream.Calls

/-!
# The counter and the rotations

The number of an epoch is taken here to be the number of rotations that a course performed; the
stream's own number of epochs stops at its largest value. In a course on either side, as long as
the final chunk did not go through, the counter is below its ceiling and is the number of chunks
since the last rotation, and the subkey is the one that so many rotations lead to.

* `Moved` — the two sides move in the same ways;
* `Stream.Placed` — where a stream is after so many rotations, kept by each call;
* `course_bounded` — the counter after any course.
-/

namespace AeadStream

/-! ## Counting -/

/-- Whether a rotation is reported. -/
def Event.isRotation : Event → Bool
  | .subkeyRotated .. => true
  | _ => false

namespace Outcome

variable {ε σ α : Type}

/-- **The rotations** that a call performed. -/
def rotations (o : Outcome ε σ α) : Nat := o.events.countP Event.isRotation

/-- Whether a chunk went through in a call. -/
def passed (o : Outcome ε σ (Option α)) : Bool :=
  match o.result with
  | .ok (some _) => true
  | _ => false

end Outcome

namespace Course

variable {ε σ α : Type}

/-- The rotations that calls performed together. -/
def rotations (done : List (Outcome ε σ α)) : Nat :=
  (done.flatMap Outcome.events).countP Event.isRotation

/-- **The chunks since the last rotation:** those that went through after the last call that
performed one. -/
def chunksSinceRotation (done : List (Outcome ε σ (Option α))) : Nat :=
  (done.reverse.takeWhile fun o => o.rotations = 0).countP Outcome.passed

@[simp] theorem rotations_cons (o : Outcome ε σ α) (done : List (Outcome ε σ α)) :
    rotations (o :: done) = o.rotations + rotations done := by
  simp [rotations, Outcome.rotations]

@[simp] theorem rotations_append_singleton (done : List (Outcome ε σ α)) (o : Outcome ε σ α) :
    rotations (done ++ [o]) = rotations done + o.rotations := by
  simp [rotations, Outcome.rotations]

/-- A call without a rotation adds its chunk, if one went through. -/
theorem chunksSinceRotation_append_of_eq (done : List (Outcome ε σ (Option α)))
    {o : Outcome ε σ (Option α)} (h : o.rotations = 0) :
    chunksSinceRotation (done ++ [o]) =
      chunksSinceRotation done + if o.passed then 1 else 0 := by
  simp [chunksSinceRotation, h, List.countP_cons]

/-- A call with a rotation begins the count anew. -/
theorem chunksSinceRotation_append_of_ne (done : List (Outcome ε σ (Option α)))
    {o : Outcome ε σ (Option α)} (h : o.rotations ≠ 0) :
    chunksSinceRotation (done ++ [o]) = 0 := by
  simp [chunksSinceRotation, h]

end Course

/-! ## How a call moves a stream -/

/-- **How a call moves a stream,** on either side. -/
inductive Moved {α : Type} (s : Stream) : Outcome StreamFault Stream (Option α) → Prop
  /-- it is refused -/
  | stayed (fault : StreamFault) {events : List Event}
      (hevents : events.countP Event.isRotation = 0) : Moved s ⟨.error fault, s, events⟩
  /-- it replaces the subkey -/
  | rekeyed (hphase : s.phase = .streaming) :
      Moved s ⟨.ok none, s.rotate, [.subkeyRotated s.rotate.epoch false]⟩
  /-- a chunk goes through -/
  | passed (hphase : s.phase = .streaming) (value : α) {tag : Tag} {s' : Stream}
      {events : List Event} (hadv : s.Advanced tag (s', events)) :
      Moved s ⟨.ok (some value), s', events⟩

theorem SenderCall.moved (c : SenderCall) (s : Stream) : Moved s (c.on s) := by
  have hwent := c.went s
  generalize c.on s = o at hwent
  cases hwent with
  | refused fault => exact .stayed fault rfl
  | rekeyed _ hphase => exact .rekeyed hphase
  | emitted _ hphase => exact .passed hphase _ (s.advanced _)

theorem ReceiverCall.moved (c : ReceiverCall) (s : Stream) : Moved s (c.on s) := by
  have hwent := c.went s
  generalize c.on s = o at hwent
  cases hwent with
  | refused _ events hevents =>
    refine .stayed _ (List.countP_eq_zero.mpr fun e he => ?_)
    obtain ⟨_, _, _, rfl⟩ := hevents e he
    exact Bool.false_ne_true
  | rekeyed _ hphase => exact .rekeyed hphase
  | accepted _ hphase => exact .passed hphase _ (s.advanced _)

/-! ## Where a stream is -/

/-- **The subkey after so many rotations.** -/
def subkeyAfter (subkey : Subkey) (baseNonce : Nonce) : Nat → Subkey
  | 0 => subkey
  | n + 1 => rotateSubkey (subkeyAfter subkey baseNonce n) baseNonce

/-- **Where a stream is** after `n` rotations, if it began as `first` and did not end. -/
structure Stream.Placed (s first : Stream) (n : Nat) : Prop where
  subkey : s.subkey = subkeyAfter first.subkey first.baseNonce n
  baseNonce : s.baseNonce = first.baseNonce
  ceiling : s.ceiling = first.ceiling
  below : s.counter < s.ceiling

namespace Stream.Placed

variable {first s : Stream} {n : Nat}

/-- The first chunk has its place, for there is room for at least one. -/
theorem fresh (key : SessionKey) (header : Header) (config : Config) :
    (Stream.fresh key header config).Placed (.fresh key header config) 0 where
  subkey := rfl
  baseNonce := rfl
  ceiling := rfl
  below := by
    rw [UInt32.lt_iff_toNat_lt]
    show 0 < config.ceiling.toNat
    rw [Config.toNat_ceiling]
    omega

/-- Below its ceiling the counter does not overflow. -/
theorem toNat_counter_add_one (h : s.Placed first n) :
    (s.counter + 1).toNat = s.counter.toNat + 1 := by
  have hbelow := UInt32.lt_iff_toNat_lt.mp h.below
  have hceiling := s.ceiling.toNat_lt
  rw [UInt32.toNat_add, UInt32.toNat_one]
  omega

theorem rotate (h : s.Placed first n) : s.rotate.Placed first (n + 1) where
  subkey := by
    show rotateSubkey s.subkey s.baseNonce = _
    rw [h.subkey, h.baseNonce]
    rfl
  baseNonce := h.baseNonce
  ceiling := h.ceiling
  below := UInt32.lt_of_le_of_lt UInt32.zero_le h.below

/-- **One call** keeps a stream in its place, counting the rotations that it performs. -/
theorem step {α : Type} {o : Outcome StreamFault Stream (Option α)} (hmoved : Moved s o)
    (h : s.phase = .streaming → s.Placed first n) (hphase : o.state.phase = .streaming) :
    o.state.Placed first (n + o.rotations) := by
  cases hmoved with
  | stayed fault hevents =>
    have hplaced := h hphase
    rwa [Outcome.rotations, hevents]
  | rekeyed hbefore => exact (h hbefore).rotate
  | passed hbefore value hadv =>
    have hplaced := h hbefore
    cases hadv with
    | counted _ hlt => exact ⟨hplaced.subkey, hplaced.baseNonce, hplaced.ceiling, hlt⟩
    | forced => exact hplaced.rotate
    | asked => exact hplaced.rotate
    | ended => cases hphase

/-- Without a rotation the counter does not go back, and it moves on with each chunk. -/
theorem counter_le {α : Type} {o : Outcome StreamFault Stream (Option α)} (hmoved : Moved s o)
    (h : s.phase = .streaming → s.Placed first n) (hrotations : o.rotations = 0) :
    s.counter.toNat + (if o.passed then 1 else 0) ≤ o.state.counter.toNat := by
  cases hmoved with
  | stayed => exact Nat.le_refl _
  | rekeyed => cases hrotations
  | passed hbefore value hadv =>
    have hcount := (h hbefore).toNat_counter_add_one
    cases hadv with
    | counted => exact Nat.le_of_eq hcount.symm
    | forced => cases hrotations
    | asked => cases hrotations
    | ended => exact Nat.le_of_eq hcount.symm

end Stream.Placed

/-! ## The counter in a course -/

/-- **What the counter says** after the calls so far, unless the stream ended. -/
def Counted {α : Type} (first : Stream) (done : List (Outcome StreamFault Stream (Option α)))
    (s : Stream) : Prop :=
  s.phase = .streaming → s.Placed first (Course.rotations done) ∧
    s.counter.toNat = Course.chunksSinceRotation done

/-- One call keeps what the counter says. -/
theorem Counted.step {α : Type} {first s : Stream}
    {done : List (Outcome StreamFault Stream (Option α))}
    {o : Outcome StreamFault Stream (Option α)} (hmoved : Moved s o) (h : Counted first done s) :
    Counted first (done ++ [o]) o.state := by
  intro hphase
  refine ⟨?_, ?_⟩
  · rw [Course.rotations_append_singleton]
    exact Stream.Placed.step hmoved (fun hbefore => (h hbefore).1) hphase
  · cases hmoved with
    | stayed fault hevents =>
      rw [Course.chunksSinceRotation_append_of_eq]
      · exact (h hphase).2
      · exact hevents
    | rekeyed =>
      rw [Course.chunksSinceRotation_append_of_ne]
      · rfl
      · exact Nat.one_ne_zero
    | passed hbefore value hadv =>
      obtain ⟨hplaced, hcounter⟩ := h hbefore
      -- a chunk that brings a rotation belongs to the epoch that it ends
      cases hadv with
      | counted =>
        rw [Course.chunksSinceRotation_append_of_eq done (by rfl), ← hcounter]
        exact hplaced.toNat_counter_add_one
      | forced =>
        rw [Course.chunksSinceRotation_append_of_ne]
        · rfl
        · exact Nat.one_ne_zero
      | asked =>
        rw [Course.chunksSinceRotation_append_of_ne]
        · rfl
        · exact Nat.one_ne_zero
      | ended => cases hphase

/-- **The counter in a course** of calls on either side. -/
theorem course_counted {α γ : Type} {call : γ → Stream → Outcome StreamFault Stream (Option α)}
    (hmoved : ∀ c s, Moved s (call c s)) (key : SessionKey) (header : Header) (config : Config)
    (calls : List γ) :
    Counted (.fresh key header config) (Course.outcomes call (.fresh key header config) calls)
      (Course.state call (.fresh key header config) calls) := by
  refine Course.induction ?_ (fun done s c h => Counted.step (hmoved c s) h) calls
  intro _
  exact ⟨Stream.Placed.fresh key header config, rfl⟩

/-- **The bounds on the counter,** after so many chunks since the last rotation. -/
structure Stream.Bounded (s : Stream) (chunks : Nat) : Prop where
  below : s.counter < s.ceiling
  ceiling_le : s.ceiling.toNat ≤ UInt32.size - 1 - 16
  counter_eq : s.counter.toNat = chunks
  /-- moving on does not overflow -/
  no_overflow : (s.counter + 1).toNat = s.counter.toNat + 1

/-- The bounds hold after any course that did not end the stream. -/
theorem course_bounded {α γ : Type} {call : γ → Stream → Outcome StreamFault Stream (Option α)}
    (hmoved : ∀ c s, Moved s (call c s)) (key : SessionKey) (header : Header) (config : Config)
    (calls : List γ)
    (hphase : (Course.state call (.fresh key header config) calls).phase = .streaming) :
    (Course.state call (.fresh key header config) calls).Bounded
      (Course.chunksSinceRotation (Course.outcomes call (.fresh key header config) calls)) := by
  obtain ⟨hplaced, hcounter⟩ := course_counted hmoved key header config calls hphase
  refine ⟨hplaced.below, ?_, hcounter, hplaced.toNat_counter_add_one⟩
  rw [hplaced.ceiling]
  show config.ceiling.toNat ≤ UInt32.size - 1 - 16
  have hmax : Config.maxRekeyInterval.toNat = UInt32.size - 1 - 16 := rfl
  rw [Config.toNat_ceiling, hmax]
  exact Nat.max_le.mpr ⟨by decide, Nat.min_le_right _ _⟩

end AeadStream
