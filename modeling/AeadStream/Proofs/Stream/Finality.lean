import AeadStream.Proofs.Stream.Calls

/-!
# The end of a stream

On either side a stream ends in the one call in which the final chunk goes through. From then on
its keys are zeros, its counter and its number of epochs stay what they were behind that chunk,
and every call is refused and changes nothing. So of the chunks that go through in a course of
calls only the last can be final.

* `Conduct` — what the calls of both sides have in common;
* `Conduct.finalized_iff`, `Conduct.outcomes_of_finalized` — the end in a course of calls;
* `EndsForGood`, `Conduct.endsForGood` — all of it, from the first chunk on.
-/

namespace AeadStream

namespace Stream

/-- **The stream behind its final chunk:** the chunk is counted and the keys are overwritten. -/
def ended (s : Stream) : Stream :=
  { s with
    counter := s.counter + 1
    phase := .finalized
    subkey := .zero 32
    baseNonce := .zero 24 }

theorem push_of_finalized {s : Stream} (h : s.phase = .finalized) (plaintext : Bytes) (tag : Tag)
    (aad : Bytes) :
    s.push plaintext tag aad = ⟨.error (.wrongPhase .finalized "push"), s, []⟩ := by
  rw [push, h]

theorem pull_of_finalized {s : Stream} (h : s.phase = .finalized) (sealed aad : Bytes) :
    s.pull sealed aad = ⟨.error (.wrongPhase .finalized "pull"), s, []⟩ := by
  rw [pull, h]

end Stream

/-! ## Calls behind the end -/

/-- **How a sender's call is refused** behind the end. Whatever sends a chunk is a push, and the
byte of its tag is looked at before the phase. -/
def SenderCall.refusal : SenderCall → StreamFault
  | .push .. | .finalize .. => .wrongPhase .finalized "push"
  | .pushRaw _ raw _ =>
    match Tag.ofByte? raw with
    | some _ => .wrongPhase .finalized "push"
    | none => .unknownTag raw
  | .rekey => .wrongPhase .finalized "rekey"

/-- **How a receiver's call is refused** behind the end. -/
def ReceiverCall.refusal : ReceiverCall → StreamFault
  | .pull .. => .wrongPhase .finalized "pull"
  | .rekey => .wrongPhase .finalized "rekey"

/-- The tag of the chunk that goes through in a sender's call, if one does. -/
def SenderCall.through? (c : SenderCall) (s : Stream) : Option Tag :=
  match (c.on s).result with
  | .ok (some _) => c.tag?
  | .ok none | .error _ => none

/-- The tag of the chunk that goes through in a receiver's call, if one does. -/
def ReceiverCall.through? (c : ReceiverCall) (s : Stream) : Option Tag :=
  match (c.on s).result with
  | .ok (some (_, tag)) => some tag
  | .ok none | .error _ => none

/-- **The conduct** of calls on a stream, on either side: a chunk that goes through moves the
stream on, nothing else ends it, and behind the end every call is refused. -/
structure Conduct {α γ : Type} (call : γ → Stream → Outcome StreamFault Stream α)
    (through? : γ → Stream → Option Tag) (refusal : γ → StreamFault) : Prop where
  through : ∀ {c : γ} {s : Stream} {tag : Tag}, through? c s = some tag →
    s.phase = .streaming ∧ (call c s).state = (s.advance tag).1
  otherwise : ∀ {c : γ} {s : Stream}, through? c s = none → (call c s).state.phase = s.phase
  refused : ∀ {c : γ} {s : Stream}, s.phase = .finalized →
    call c s = ⟨.error (refusal c), s, []⟩

theorem SenderCall.on_of_finalized {c : SenderCall} {s : Stream} (h : s.phase = .finalized) :
    c.on s = ⟨.error c.refusal, s, []⟩ := by
  cases c with
  | push plaintext tag aad =>
    rw [on, Stream.push_of_finalized h]
    rfl
  | finalize plaintext aad =>
    rw [on, Stream.finalize, Stream.push_of_finalized h]
    rfl
  | pushRaw plaintext raw aad =>
    cases htag : Tag.ofByte? raw with
    | none =>
      simp only [on, refusal, Stream.pushRaw, Tag.ofByte, htag]
      rfl
    | some tag =>
      simp only [on, refusal, Stream.pushRaw, Tag.ofByte, htag, Stream.push_of_finalized h]
      rfl
  | rekey =>
    rw [on, Stream.rekey_of_finalized h]
    rfl

theorem ReceiverCall.on_of_finalized {c : ReceiverCall} {s : Stream} (h : s.phase = .finalized) :
    c.on s = ⟨.error c.refusal, s, []⟩ := by
  cases c with
  | pull sealed aad =>
    rw [on, Stream.pull_of_finalized h]
    rfl
  | rekey =>
    rw [on, Stream.rekey_of_finalized h]
    rfl

theorem SenderCall.conduct : Conduct SenderCall.on SenderCall.through? SenderCall.refusal where
  through := by
    intro c s tag h
    have hwent := c.went s
    rw [through?] at h
    generalize c.on s = o at h hwent
    cases hwent with
    | refused => cases h
    | rekeyed => cases h
    | emitted htag hphase =>
      obtain rfl := Option.some.inj (htag.symm.trans h)
      exact ⟨hphase, rfl⟩
  otherwise := by
    intro c s h
    have hwent := c.went s
    rw [through?] at h
    generalize c.on s = o at h hwent
    cases hwent with
    | refused => rfl
    | rekeyed => rfl
    | emitted htag => cases htag.symm.trans h
  refused := on_of_finalized

theorem ReceiverCall.conduct :
    Conduct ReceiverCall.on ReceiverCall.through? ReceiverCall.refusal where
  through := by
    intro c s tag h
    have hwent := c.went s
    rw [through?] at h
    generalize c.on s = o at h hwent
    cases hwent with
    | refused => cases h
    | rekeyed => cases h
    | accepted _ hphase =>
      obtain rfl := Option.some.inj h
      exact ⟨hphase, rfl⟩
  otherwise := by
    intro c s h
    have hwent := c.went s
    rw [through?] at h
    generalize c.on s = o at h hwent
    cases hwent with
    | refused => rfl
    | rekeyed => rfl
    | accepted => cases h
  refused := on_of_finalized

/-! ## Courses of calls -/

/-- **The tags of the chunks** that go through in calls made one after the other. -/
def Course.tags {α γ : Type} (call : γ → Stream → Outcome StreamFault Stream α)
    (through? : γ → Stream → Option Tag) (s : Stream) : List γ → List Tag
  | [] => []
  | c :: cs => (through? c s).toList ++ tags call through? (call c s).state cs

namespace Conduct

variable {α γ : Type} {call : γ → Stream → Outcome StreamFault Stream α}
  {through? : γ → Stream → Option Tag} {refusal : γ → StreamFault} {c : γ} {s : Stream}

/-- **A call ends a stream** if and only if the final chunk goes through in it. -/
theorem phase_of_call (h : Conduct call through? refusal) (hphase : s.phase = .streaming) :
    (call c s).state.phase = .finalized ↔ through? c s = some .final := by
  cases hthrough : through? c s with
  | none =>
    rw [h.otherwise hthrough, hphase]
    exact ⟨nofun, nofun⟩
  | some tag =>
    rw [(h.through hthrough).2]
    constructor
    · intro hend
      by_cases htag : tag = .final
      · rw [htag]
      · rw [Stream.phase_advance htag, hphase] at hend
        cases hend
    · intro htag
      obtain rfl := Option.some.inj htag
      rfl

/-- **Behind the end** all calls are refused and nothing changes. -/
theorem outcomes_of_finalized (h : Conduct call through? refusal) (hphase : s.phase = .finalized)
    (calls : List γ) :
    Course.outcomes call s calls = calls.map (fun c => ⟨.error (refusal c), s, []⟩) ∧
      Course.state call s calls = s := by
  induction calls with
  | nil => exact ⟨rfl, rfl⟩
  | cons c cs ih =>
    obtain ⟨houtcomes, hstate⟩ := ih
    rw [Course.outcomes_cons, Course.state_cons, List.map_cons, h.refused hphase]
    exact ⟨congrArg (_ :: ·) houtcomes, hstate⟩

/-- Behind the end no chunk goes through. -/
theorem tags_of_finalized (h : Conduct call through? refusal) (hphase : s.phase = .finalized)
    (calls : List γ) : Course.tags call through? s calls = [] := by
  induction calls with
  | nil => rfl
  | cons c cs ih =>
    have hnone : through? c s = none := by
      cases hthrough : through? c s with
      | none => rfl
      | some tag =>
        have hstreaming := (h.through hthrough).1
        rw [hphase] at hstreaming
        cases hstreaming
    rw [Course.tags, hnone, h.refused hphase]
    exact ih

/-- **A course ends a stream** if and only if the final chunk goes through in one of its calls, and
then it leaves what this call left. -/
theorem finalized_iff (h : Conduct call through? refusal) (hphase : s.phase = .streaming)
    (calls : List γ) :
    (Course.state call s calls).phase = .finalized ↔
      ∃ front c back, calls = front ++ c :: back ∧
        through? c (Course.state call s front) = some .final ∧
        Course.state call s calls = (Course.state call s front).ended := by
  constructor
  · intro hend
    induction calls generalizing s with
    | nil =>
      rw [Course.state_nil, hphase] at hend
      cases hend
    | cons c cs ih =>
      rw [Course.state_cons] at hend ⊢
      by_cases hfinal : through? c s = some .final
      · -- the first call ends the stream, and those behind it change nothing
        have hstate := (h.through hfinal).2
        refine ⟨[], c, cs, rfl, hfinal, ?_⟩
        rw [(h.outcomes_of_finalized ((h.phase_of_call hphase).mpr hfinal) cs).2, hstate]
        rfl
      · have hgoes : (call c s).state.phase = .streaming := by
          cases hnext : (call c s).state.phase with
          | streaming => rfl
          | finalized => exact absurd ((h.phase_of_call hphase).mp hnext) hfinal
        obtain ⟨front, d, back, rfl, hthrough, hstate⟩ := ih hgoes hend
        exact ⟨c :: front, d, back, rfl, hthrough, hstate⟩
  · rintro ⟨front, c, back, -, -, hstate⟩
    rw [hstate]
    rfl

/-- **Only the last chunk can be final.** -/
theorem eq_nil_of_tags (h : Conduct call through? refusal) (calls : List γ) :
    ∀ {s : Stream} {front back : List Tag},
      Course.tags call through? s calls = front ++ .final :: back → back = [] := by
  induction calls with
  | nil =>
    intro s front back htags
    rw [Course.tags] at htags
    exact absurd htags.symm (List.append_ne_nil_of_right_ne_nil front (List.cons_ne_nil _ _))
  | cons c cs ih =>
    intro s front back htags
    rw [Course.tags] at htags
    cases hthrough : through? c s with
    | none =>
      rw [hthrough] at htags
      exact ih htags
    | some tag =>
      rw [hthrough] at htags
      cases front with
      | nil =>
        obtain ⟨rfl, hback⟩ := List.cons.inj htags
        obtain ⟨hphase, -⟩ := h.through hthrough
        rw [← hback]
        exact h.tags_of_finalized ((h.phase_of_call hphase).mpr hthrough) cs
      | cons first front => exact ih (List.cons.inj htags).2

end Conduct

/-! ## All of it -/

/-- **A stream ends for good** in these calls, if it ends in them at all. -/
structure EndsForGood {α γ : Type} (call : γ → Stream → Outcome StreamFault Stream α)
    (through? : γ → Stream → Option Tag) (refusal : γ → StreamFault) (first : Stream)
    (calls : List γ) : Prop where
  /-- the end comes exactly in the call in which the final chunk goes through -/
  becomes : ∀ front c back, calls = front ++ c :: back →
    ((Course.state call first front).phase = .streaming ∧
        (Course.state call first (front ++ [c])).phase = .finalized ↔
      through? c (Course.state call first front) = some .final)
  /-- it does not go back -/
  stays : ∀ front back, calls = front ++ back →
    (Course.state call first front).phase = .finalized →
    Course.state call first calls = Course.state call first front
  /-- the keys are zeros then, and the counter and the number of epochs are those behind the final
  chunk -/
  wiped : (Course.state call first calls).phase = .finalized →
    (Course.state call first calls).subkey = .zero 32 ∧
    (Course.state call first calls).baseNonce = .zero 24 ∧
    ∃ front c back, calls = front ++ c :: back ∧
      through? c (Course.state call first front) = some .final ∧
      (Course.state call first calls).counter = (Course.state call first front).counter + 1 ∧
      (Course.state call first calls).epoch = (Course.state call first front).epoch
  /-- all further calls are refused, each in its way, and change nothing -/
  terminal : (Course.state call first calls).phase = .finalized → ∀ more : List γ,
    Course.outcomes call (Course.state call first calls) more =
      more.map fun c => ⟨.error (refusal c), Course.state call first calls, []⟩
  /-- of the chunks that go through, only the last can be final -/
  last : ∀ front back, Course.tags call through? first calls = front ++ .final :: back → back = []

/-- A stream that begins ends for good. -/
theorem Conduct.endsForGood {α γ : Type} {call : γ → Stream → Outcome StreamFault Stream α}
    {through? : γ → Stream → Option Tag} {refusal : γ → StreamFault} {first : Stream}
    (h : Conduct call through? refusal) (hfirst : first.phase = .streaming) (calls : List γ) :
    EndsForGood call through? refusal first calls where
  becomes := by
    intro front c back _
    have hstate : Course.state call first (front ++ [c]) =
        (call c (Course.state call first front)).state := Course.state_append front [c]
    rw [hstate]
    constructor
    · rintro ⟨hphase, hend⟩
      exact (h.phase_of_call hphase).mp hend
    · intro hthrough
      have hphase := (h.through hthrough).1
      exact ⟨hphase, (h.phase_of_call hphase).mpr hthrough⟩
  stays := by
    rintro front back rfl hphase
    rw [Course.state_append]
    exact (h.outcomes_of_finalized hphase back).2
  wiped := by
    intro hend
    obtain ⟨front, c, back, hcalls, hthrough, hstate⟩ := (h.finalized_iff hfirst calls).mp hend
    rw [hstate]
    exact ⟨rfl, rfl, front, c, back, hcalls, hthrough, rfl, rfl⟩
  terminal hend more := (h.outcomes_of_finalized hend more).1
  last _ _ := h.eq_nil_of_tags calls

end AeadStream
