import AeadStream.Proofs.Stream.Finality
import AeadStream.Proofs.Stream.Lockstep
import AeadStream.Proofs.Stream.Rotations
import AeadStream.Proofs.Stream.Secrecy

/-!
# The trace replays the stream

What the calls on a stream report can be told from what their callers see: which calls failed and
how, and which tags went through. A machine that counts rotations and chunks without any limit
replays the reports from these deeds alone. So the rotations are numbered in order, the end is
reported last and once, and each forged chunk is reported at the place where it was offered. What
two peers in step report of their rotations and of the end is the same.

* `Position.report`, `Position.replay` — the machine;
* `Stream.At.step`, `Stream.At.replays` — one call, and any number of them;
* `Traced` — what holds of the trace of a course, and `Stream.At.traced`;
* `Peers.shared_conversation` — the traces of two peers.
-/

namespace AeadStream

/-! ## Kinds of events -/

namespace Event

/-- Whether the end is reported. -/
def isFinalization : Event → Bool
  | .streamFinalized .. => true
  | _ => false

/-- Whether a forged chunk is reported. -/
def isRejection : Event → Bool
  | .chunkRejected .. => true
  | _ => false

/-- Whether both sides report it: a rotation or the end. -/
def isShared (e : Event) : Bool := e.isRotation || e.isFinalization

end Event

/-- **What calls report** together. -/
def Course.reports {ε σ α γ : Type} (call : γ → σ → Outcome ε σ α) (s : σ) (calls : List γ) :
    List Event :=
  (Course.outcomes call s calls).flatMap Outcome.events

theorem Course.reports_cons {ε σ α γ : Type} {call : γ → σ → Outcome ε σ α} {s : σ} (c : γ)
    (cs : List γ) :
    Course.reports call s (c :: cs) =
      (call c s).events ++ Course.reports call (call c s).state cs :=
  List.flatMap_cons

theorem Course.reports_append {ε σ α γ : Type} {call : γ → σ → Outcome ε σ α} {s : σ}
    (front back : List γ) :
    Course.reports call s (front ++ back) =
      Course.reports call s front ++ Course.reports call (Course.state call s front) back := by
  induction front generalizing s with
  | nil => rfl
  | cons c cs ih =>
    rw [List.cons_append, Course.reports_cons, Course.reports_cons, ih, List.append_assoc]
    rfl

/-! ## Deeds -/

/-- **A deed:** what a call on a stream did, as its caller sees it. -/
inductive Deed
  /-- it failed, for another reason than that bytes are not authentic -/
  | refused
  /-- it was offered so many bytes, and they are not authentic -/
  | forged (length : Nat)
  /-- it replaced the subkey -/
  | rekeyed
  /-- a chunk with this tag went through -/
  | passed (tag : Tag)
deriving DecidableEq

/-- Whether bytes were not authentic. -/
def Deed.isForged : Deed → Bool
  | .forged _ => true
  | _ => false

/-- The deed of a sender's call that gave this result. -/
def SenderCall.deed (c : SenderCall) : Except StreamFault (Option Bytes) → Deed
  | .ok (some _) => c.tag?.elim .refused .passed
  | .ok none => .rekeyed
  | .error _ => .refused

/-- The bytes that the call offers. -/
def ReceiverCall.offered : ReceiverCall → Bytes
  | .pull sealed _ => sealed
  | .rekey => []

/-- The deed of a receiver's call that gave this result. -/
def ReceiverCall.deed (c : ReceiverCall) : Except StreamFault (Option (Bytes × Tag)) → Deed
  | .ok (some (_, tag)) => .passed tag
  | .ok none => .rekeyed
  | .error fault => if fault = .authentication then .forged c.offered.length else .refused

/-- **The deeds** of calls made one after the other, from the calls and their results. -/
def Course.deeds {α γ : Type} (call : γ → Stream → Outcome StreamFault Stream α)
    (deed : γ → Except StreamFault α → Deed) (s : Stream) (calls : List γ) : List Deed :=
  List.zipWith deed calls (Course.results call s calls)

/-! ## Replaying -/

/-- **A position** in a stream. The numbers have no limit here. -/
structure Position where
  /-- rotations so far -/
  rotations : Nat := 0
  /-- chunks that went through since the last one -/
  chunks : Nat := 0

namespace Position

/-- The number of rotations as a stream counts them: it stops at its largest value. -/
def epochOf (rotations : Nat) : UInt64 := UInt64.ofNat (min rotations (UInt64.size - 1))

/-- **Whether a deed brings a rotation,** and whether that is forced: a chunk without a wish of its
own brings one if it is the last for which there is room. -/
def turn? (ceiling : Nat) (p : Position) : Deed → Option Bool
  | .rekeyed | .passed .rekey => some false
  | .passed .message | .passed .push => if p.chunks + 1 = ceiling then some true else none
  | .passed .final | .refused | .forged _ => none

/-- The position after a deed that brings no rotation. -/
def onward (p : Position) : Deed → Position
  | .passed _ => { p with chunks := p.chunks + 1 }
  | .refused | .forged _ | .rekeyed => p

/-- The position after a deed. -/
def after (ceiling : Nat) (p : Position) (d : Deed) : Position :=
  match p.turn? ceiling d with
  | some _ => ⟨p.rotations + 1, 0⟩
  | none => p.onward d

/-- What is reported of a deed that brings no rotation. -/
def remark (p : Position) : Deed → List Event
  | .passed .final => [.streamFinalized (epochOf p.rotations) (UInt32.ofNat (p.chunks + 1))]
  | .forged length => [.chunkRejected (epochOf p.rotations) (UInt32.ofNat p.chunks) length]
  | .passed .message | .passed .push | .passed .rekey | .refused | .rekeyed => []

/-- **What is reported** of a deed. -/
def report (ceiling : Nat) (p : Position) (d : Deed) : List Event :=
  match p.turn? ceiling d with
  | some forced => [.subkeyRotated (epochOf (p.rotations + 1)) forced]
  | none => p.remark d

/-- The position behind deeds, one after the other. -/
def behind (ceiling : Nat) (p : Position) (ds : List Deed) : Position := ds.foldl (after ceiling) p

/-- **What is reported of deeds,** one after the other. -/
def replay (ceiling : Nat) (p : Position) : List Deed → List Event
  | [] => []
  | d :: ds => p.report ceiling d ++ replay ceiling (p.after ceiling d) ds

/-- The rotations that deeds bring, and which of them are forced. -/
def turns (ceiling : Nat) (p : Position) : List Deed → List Bool
  | [] => []
  | d :: ds => (p.turn? ceiling d).toList ++ turns ceiling (p.after ceiling d) ds

variable {ceiling : Nat} {p : Position} {d : Deed}

theorem after_of_turn {forced : Bool} (h : p.turn? ceiling d = some forced) :
    p.after ceiling d = ⟨p.rotations + 1, 0⟩ := by
  simp only [after, h]

theorem report_of_turn {forced : Bool} (h : p.turn? ceiling d = some forced) :
    p.report ceiling d = [.subkeyRotated (epochOf (p.rotations + 1)) forced] := by
  simp only [report, h]

theorem after_of_no_turn (h : p.turn? ceiling d = none) : p.after ceiling d = p.onward d := by
  simp only [after, h]

theorem report_of_no_turn (h : p.turn? ceiling d = none) : p.report ceiling d = p.remark d := by
  simp only [report, h]

/-- Without a rotation the number of rotations stays. -/
theorem rotations_onward (p : Position) (d : Deed) : (p.onward d).rotations = p.rotations := by
  cases d <;> rfl

/-- Without a rotation none is reported. -/
theorem filter_isRotation_remark (p : Position) (d : Deed) :
    (p.remark d).filter Event.isRotation = [] := by
  cases d with
  | refused => rfl
  | forged => rfl
  | rekeyed => rfl
  | passed tag => cases tag <;> rfl

/-- A chunk without a wish of its own brings a rotation if the ceiling is reached. -/
theorem turn?_data {tag : Tag} (htag : tag = .message ∨ tag = .push) :
    p.turn? ceiling (.passed tag) = if p.chunks + 1 = ceiling then some true else none := by
  rcases htag with rfl | rfl
  · rfl
  · rfl

/-- Otherwise it is counted and not reported. -/
theorem after_counted {tag : Tag} (htag : tag = .message ∨ tag = .push)
    (hne : p.chunks + 1 ≠ ceiling) :
    p.after ceiling (.passed tag) = { p with chunks := p.chunks + 1 } ∧
      p.report ceiling (.passed tag) = [] := by
  have hturn : p.turn? ceiling (.passed tag) = none := (turn?_data htag).trans (if_neg hne)
  rw [after_of_no_turn hturn, report_of_no_turn hturn]
  rcases htag with rfl | rfl
  · exact ⟨rfl, rfl⟩
  · exact ⟨rfl, rfl⟩

/-- **The rotations are numbered in order,** and each is forced or not as the deeds say. -/
theorem filter_isRotation_replay (ds : List Deed) (p : Position) :
    (p.replay ceiling ds).filter Event.isRotation =
      (p.turns ceiling ds).mapIdx fun i forced =>
        .subkeyRotated (epochOf (p.rotations + i + 1)) forced := by
  induction ds generalizing p with
  | nil => rfl
  | cons d ds ih =>
    rw [replay, turns, List.filter_append, ih]
    cases hturn : p.turn? ceiling d with
    | none =>
      rw [report_of_no_turn hturn, after_of_no_turn hturn, filter_isRotation_remark,
        rotations_onward]
      rfl
    | some forced =>
      have hnext : ∀ i, p.rotations + 1 + i + 1 = p.rotations + (i + 1) + 1 := by
        intro i
        omega
      rw [report_of_turn hturn, after_of_turn hturn, Option.toList_some, List.singleton_append,
        List.mapIdx_cons]
      simp only [hnext]
      rfl

/-- With room for two chunks, one that asks for a rotation where the ceiling is reached brings one
that is not forced, and the final one brings none. -/
example :
    replay 2 {} [.passed .message, .passed .rekey, .passed .message, .passed .push, .forged 17,
      .passed .message, .passed .final] =
    [.subkeyRotated 1 false, .subkeyRotated 2 true, .chunkRejected 2 0 17,
      .streamFinalized 2 2] := by
  decide

/-- Of one deed a forged chunk is reported if and only if it was one. -/
theorem countP_isRejection_report (ceiling : Nat) (p : Position) (d : Deed) :
    (p.report ceiling d).countP Event.isRejection = if d.isForged then 1 else 0 := by
  cases hturn : p.turn? ceiling d with
  | some forced =>
    rw [report_of_turn hturn]
    cases d with
    | refused => cases hturn
    | forged => cases hturn
    | rekeyed => rfl
    | passed => rfl
  | none =>
    rw [report_of_no_turn hturn]
    cases d with
    | refused => rfl
    | forged => rfl
    | rekeyed => rfl
    | passed tag => cases tag <;> rfl

/-- **Each forged chunk is reported once.** -/
theorem countP_isRejection_replay (ds : List Deed) (p : Position) :
    (p.replay ceiling ds).countP Event.isRejection = ds.countP Deed.isForged := by
  induction ds generalizing p with
  | nil => rfl
  | cons d ds ih =>
    rw [replay, List.countP_append, countP_isRejection_report, ih, List.countP_cons, Nat.add_comm]

/-- Nothing else is reported than rotations, the end and forged chunks. -/
theorem kinds_report {e : Event} (he : e ∈ p.report ceiling d) :
    e.isRotation ∨ e.isFinalization ∨ e.isRejection := by
  cases hturn : p.turn? ceiling d with
  | some forced =>
    rw [report_of_turn hturn] at he
    exact .inl (List.mem_singleton.mp he ▸ rfl)
  | none =>
    rw [report_of_no_turn hturn] at he
    cases d with
    | refused => cases he
    | forged => exact .inr (.inr (List.mem_singleton.mp he ▸ rfl))
    | rekeyed => cases he
    | passed tag =>
      cases tag with
      | final => exact .inr (.inl (List.mem_singleton.mp he ▸ rfl))
      | message => cases he
      | push => cases he
      | rekey => cases he

theorem kinds_replay (ds : List Deed) (p : Position) :
    ∀ e ∈ p.replay ceiling ds, e.isRotation ∨ e.isFinalization ∨ e.isRejection := by
  induction ds generalizing p with
  | nil =>
    intro e he
    cases he
  | cons d ds ih =>
    intro e he
    rcases List.mem_append.mp he with he | he
    · exact kinds_report he
    · exact ih _ e he

end Position

/-! ## One call -/

/-- **How a call goes,** on either side, and what is seen and reported of it. -/
inductive Stream.Did {α : Type} (s : Stream) : Deed → Outcome StreamFault Stream (Option α) → Prop
  /-- it fails without a report -/
  | refused (fault : StreamFault) : Did s .refused ⟨.error fault, s, []⟩
  /-- it fails on forged bytes, and reports where -/
  | forged (hphase : s.phase = .streaming) (length : Nat) :
      Did s (.forged length) ⟨.error .authentication, s, [.chunkRejected s.epoch s.counter length]⟩
  /-- it replaces the subkey -/
  | rekeyed (hphase : s.phase = .streaming) :
      Did s .rekeyed ⟨.ok none, s.rotate, [.subkeyRotated s.rotate.epoch false]⟩
  /-- a chunk goes through -/
  | passed (hphase : s.phase = .streaming) (value : α) {tag : Tag} {s' : Stream}
      {events : List Event} (hadv : s.Advanced tag (s', events)) :
      Did s (.passed tag) ⟨.ok (some value), s', events⟩

theorem SenderCall.did (c : SenderCall) (s : Stream) : s.Did (c.deed (c.on s).result) (c.on s) := by
  have hwent := c.went s
  generalize c.on s = o at hwent
  cases hwent with
  | refused fault => exact .refused fault
  | rekeyed _ hphase => exact .rekeyed hphase
  | emitted htag hphase =>
    rw [deed, htag]
    exact .passed hphase _ (s.advanced _)

theorem ReceiverCall.did (c : ReceiverCall) (s : Stream) :
    s.Did (c.deed (c.on s).result) (c.on s) := by
  cases c with
  | pull sealed aad =>
    have hpull := s.pulled sealed aad
    rw [on]
    generalize s.pull sealed aad = o at hpull
    cases hpull with
    | finalized => exact .refused _
    | malformed => exact .refused _
    | forged hphase => exact .forged hphase _
    | unknownTag => exact .refused _
    | accepted hphase => exact .passed hphase _ (s.advanced _)
  | rekey =>
    cases hphase : s.phase with
    | streaming =>
      rw [on, Stream.rekey_of_streaming hphase]
      exact .rekeyed hphase
    | finalized =>
      rw [on, Stream.rekey_of_finalized hphase]
      exact .refused _

namespace Stream

/-- **A stream is at a position** of the machine, if it began like this: it has the subkey that so
many rotations lead to, unless it ended, and it shows the same numbers. -/
structure At (s first : Stream) (p : Position) : Prop where
  epoch : s.epoch = Position.epochOf p.rotations
  counter : s.counter.toNat = p.chunks
  placed : s.phase = .streaming → s.Placed first p.rotations

namespace At

variable {s first : Stream} {p : Position}

/-- A stream begins at the first position. -/
theorem fresh (key : SessionKey) (header : Header) (config : Config) :
    (Stream.fresh key header config).At (.fresh key header config) {} where
  epoch := rfl
  counter := rfl
  placed _ := Placed.fresh key header config

/-- The counter as the machine has it. -/
theorem counter_eq (h : s.At first p) : s.counter = UInt32.ofNat p.chunks := by
  rw [← h.counter, UInt32.ofNat_toNat]

/-- A rotation is counted, up to the largest value. -/
theorem epoch_rotate (h : s.At first p) :
    s.rotate.epoch = Position.epochOf (p.rotations + 1) := by
  have hsize : UInt64.size = 18446744073709551616 := rfl
  have hepoch : s.epoch.toNat = min p.rotations (UInt64.size - 1) := by
    rw [h.epoch, Position.epochOf, UInt64.toNat_ofNat_of_lt' (by omega)]
  apply UInt64.toNat.inj
  rw [Position.epochOf, UInt64.toNat_ofNat_of_lt' (by omega)]
  show (if s.epoch = 18446744073709551615 then s.epoch else s.epoch + 1).toNat = _
  split
  · next hmax =>
    have htop : s.epoch.toNat = 18446744073709551615 := congrArg UInt64.toNat hmax
    omega
  · next hless =>
    have htop : s.epoch.toNat ≠ 18446744073709551615 := fun h => hless (UInt64.toNat.inj h)
    rw [UInt64.toNat_add, UInt64.toNat_one]
    omega

/-- A rotation is one for the machine as well. -/
theorem rotate (h : s.At first p) (hphase : s.phase = .streaming) :
    s.rotate.At first ⟨p.rotations + 1, 0⟩ where
  epoch := h.epoch_rotate
  counter := rfl
  placed _ := (h.placed hphase).rotate

/-- **One call** reports what the machine does, and both go to the same position. -/
theorem step {α : Type} {d : Deed} {o : Outcome StreamFault Stream (Option α)} (h : s.At first p)
    (hdid : s.Did d o) :
    o.events = p.report first.ceiling.toNat d ∧
      o.state.At first (p.after first.ceiling.toNat d) := by
  cases hdid with
  | refused => exact ⟨rfl, h⟩
  | forged _ length =>
    rw [h.epoch, h.counter_eq]
    exact ⟨rfl, h⟩
  | rekeyed hphase =>
    rw [h.epoch_rotate]
    exact ⟨rfl, h.rotate hphase⟩
  | @passed hphase value tag _ _ hadv =>
    have hplaced := h.placed hphase
    have hcount : (s.counter + 1).toNat = p.chunks + 1 := by
      rw [hplaced.toNat_counter_add_one, h.counter]
    cases hadv with
    | counted htag hlt =>
      have hless := UInt32.lt_iff_toNat_lt.mp hlt
      rw [hcount, hplaced.ceiling] at hless
      obtain ⟨hafter, hreport⟩ := Position.after_counted (p := p) htag (Nat.ne_of_lt hless)
      rw [hafter, hreport]
      exact ⟨rfl, h.epoch, hcount, fun _ =>
        ⟨hplaced.subkey, hplaced.baseNonce, hplaced.ceiling, hlt⟩⟩
    | forced htag hle =>
      -- the counter was below its ceiling, so it is now at it and not beyond
      have hreached : p.chunks + 1 = first.ceiling.toNat := by
        have hbelow := UInt32.lt_iff_toNat_lt.mp hplaced.below
        have hge := UInt32.le_iff_toNat_le.mp hle
        rw [h.counter, hplaced.ceiling] at hbelow
        rw [hcount, hplaced.ceiling] at hge
        omega
      have hturn : p.turn? first.ceiling.toNat (.passed tag) = some true :=
        (Position.turn?_data htag).trans (if_pos hreached)
      rw [Position.report_of_turn hturn, Position.after_of_turn hturn, h.epoch_rotate]
      exact ⟨rfl, h.rotate hphase⟩
    | asked =>
      rw [h.epoch_rotate]
      exact ⟨rfl, h.rotate hphase⟩
    | ended =>
      have hcounter : s.counter + 1 = UInt32.ofNat (p.chunks + 1) := by
        rw [← hcount, UInt32.ofNat_toNat]
      refine ⟨?_, h.epoch, hcount, nofun⟩
      rw [h.epoch, hcounter]
      rfl

end At

end Stream

/-! ## Courses of calls -/

/-- Behind the end a call reports nothing. -/
theorem Stream.Did.of_finalized {α : Type} {s : Stream} {d : Deed}
    {o : Outcome StreamFault Stream (Option α)} (hdid : s.Did d o) (h : s.phase = .finalized) :
    o.state = s ∧ o.events = [] := by
  cases hdid with
  | refused => exact ⟨rfl, rfl⟩
  | forged hphase => cases hphase.symm.trans h
  | rekeyed hphase => cases hphase.symm.trans h
  | passed hphase => cases hphase.symm.trans h

/-- Before it, a call goes on without a report of the end, or it ends the stream and reports that
only. -/
theorem Stream.Did.of_streaming {α : Type} {s : Stream} {d : Deed}
    {o : Outcome StreamFault Stream (Option α)} (hdid : s.Did d o) (h : s.phase = .streaming) :
    (o.state.phase = .streaming ∧ ∀ e ∈ o.events, ¬e.isFinalization) ∨
      o.state = s.ended ∧ o.events = [.streamFinalized s.ended.epoch s.ended.counter] := by
  have hother : ∀ {e : Event}, ¬e.isFinalization → ∀ e' ∈ [e], ¬e'.isFinalization := by
    intro e he e' hmem
    rwa [List.mem_singleton.mp hmem]
  cases hdid with
  | refused => exact .inl ⟨h, nofun⟩
  | forged => exact .inl ⟨h, hother Bool.false_ne_true⟩
  | rekeyed => exact .inl ⟨h, hother Bool.false_ne_true⟩
  | passed _ _ hadv =>
    cases hadv with
    | counted => exact .inl ⟨h, nofun⟩
    | forced => exact .inl ⟨h, hother Bool.false_ne_true⟩
    | asked => exact .inl ⟨h, hother Bool.false_ne_true⟩
    | ended => exact .inr ⟨rfl, rfl⟩

section

variable {α γ : Type} {call : γ → Stream → Outcome StreamFault Stream (Option α)}
  {deed : γ → Except StreamFault (Option α) → Deed}
  (hdid : ∀ (c : γ) (s : Stream), s.Did (deed c (call c s).result) (call c s))

include hdid

/-- **Any calls** report what the machine does, and both go to the same position. -/
theorem Stream.At.replays {first : Stream} (calls : List γ) :
    ∀ {s : Stream} {p : Position}, s.At first p →
      Course.reports call s calls =
          p.replay first.ceiling.toNat (Course.deeds call deed s calls) ∧
        (Course.state call s calls).At first
          (p.behind first.ceiling.toNat (Course.deeds call deed s calls)) := by
  induction calls with
  | nil => exact fun h => ⟨rfl, h⟩
  | cons c cs ih =>
    intro s p h
    obtain ⟨hevents, hnext⟩ := h.step (hdid c s)
    obtain ⟨hreports, hstate⟩ := ih hnext
    refine ⟨?_, hstate⟩
    rw [Course.reports_cons, hevents, hreports]
    rfl

/-- Behind the end no calls report anything. -/
theorem Course.reports_of_finalized (calls : List γ) {s : Stream} (h : s.phase = .finalized) :
    Course.reports call s calls = [] ∧ Course.state call s calls = s := by
  induction calls with
  | nil => exact ⟨rfl, rfl⟩
  | cons c cs ih =>
    obtain ⟨hstate, hevents⟩ := (hdid c s).of_finalized h
    rw [Course.reports_cons, Course.state_cons, hstate, hevents]
    exact ih

/-- **The end is reported last and once,** if the calls end the stream, with what they leave. -/
theorem Course.reports_of_streaming (calls : List γ) :
    ∀ {s : Stream}, s.phase = .streaming → ∃ front,
      Course.reports call s calls = front ++
        (if (Course.state call s calls).phase = .finalized then
          [.streamFinalized (Course.state call s calls).epoch (Course.state call s calls).counter]
        else []) ∧
      ∀ e ∈ front, ¬e.isFinalization := by
  induction calls with
  | nil =>
    intro s h
    refine ⟨[], ?_, nofun⟩
    rw [if_neg (by rw [Course.state_nil, h]; exact nofun)]
    rfl
  | cons c cs ih =>
    intro s h
    rw [Course.reports_cons, Course.state_cons]
    rcases (hdid c s).of_streaming h with ⟨hphase, hevents⟩ | ⟨hstate, hevents⟩
    · obtain ⟨front, hreports, hfront⟩ := ih hphase
      refine ⟨(call c s).events ++ front, ?_, ?_⟩
      · rw [hreports, List.append_assoc]
      · exact fun e he => (List.mem_append.mp he).elim (hevents e) (hfront e)
    · have hend : (call c s).state.phase = .finalized := by rw [hstate]; rfl
      obtain ⟨hnone, hsame⟩ := Course.reports_of_finalized hdid cs hend
      refine ⟨[], ?_, nofun⟩
      rw [hnone, hsame, if_pos hend, hstate, hevents]
      rfl

end

/-! ## The trace of a course -/

/-- **The trace** of a stream on which these calls are made: what is reported of the new stream,
and what the calls report. -/
def Stream.trace {α γ : Type} (call : γ → Stream → Outcome StreamFault Stream α) (first : Stream)
    (calls : List γ) : List Event :=
  first.begun ++ Course.reports call first calls

/-- **The trace replays the stream** that begins like this, in these calls. -/
structure Traced {α γ : Type} (call : γ → Stream → Outcome StreamFault Stream (Option α))
    (deed : γ → Except StreamFault (Option α) → Deed) (first : Stream) (calls : List γ) : Prop where
  /-- the settings are reported first, and then only rotations, the end and forged chunks -/
  begins : ∃ reports, Stream.trace call first calls =
      .streamBegun first.ceiling first.maxChunkLen :: reports ∧
    ∀ e ∈ reports, e.isRotation ∨ e.isFinalization ∨ e.isRejection
  /-- all of it is replayed from what the callers see -/
  replayed : Stream.trace call first calls = .streamBegun first.ceiling first.maxChunkLen ::
    Position.replay first.ceiling.toNat {} (Course.deeds call deed first calls)
  /-- after any of the calls the stream is where the machine is, -/
  followed : ∀ front back, calls = front ++ back →
    (Course.state call first front).At first
      (Position.behind first.ceiling.toNat {} (Course.deeds call deed first front))
  /-- and there the next call reports what the machine does -/
  each : ∀ front c back, calls = front ++ c :: back →
    (call c (Course.state call first front)).events =
      (Position.behind first.ceiling.toNat {} (Course.deeds call deed first front)).report
        first.ceiling.toNat (deed c (call c (Course.state call first front)).result)
  /-- the rotations are numbered in order, and each is forced or not as the deeds say -/
  rotations : (Stream.trace call first calls).filter Event.isRotation =
    (Position.turns first.ceiling.toNat {} (Course.deeds call deed first calls)).mapIdx
      fun i forced => .subkeyRotated (Position.epochOf (i + 1)) forced
  /-- the end is reported last and once, if the calls end the stream, with what they leave -/
  ends : ∃ front, Stream.trace call first calls = front ++
      (if (Course.state call first calls).phase = .finalized then
        [.streamFinalized (Course.state call first calls).epoch
          (Course.state call first calls).counter]
      else []) ∧
    ∀ e ∈ front, ¬e.isFinalization
  /-- each forged chunk is reported where it was offered, -/
  forged : ∀ front c back length, calls = front ++ c :: back →
    deed c (call c (Course.state call first front)).result = .forged length →
    (call c (Course.state call first front)).events =
      [.chunkRejected (Course.state call first front).epoch
        (Course.state call first front).counter length]
  /-- and no other is reported as forged -/
  rejections : (Stream.trace call first calls).countP Event.isRejection =
    (Course.deeds call deed first calls).countP Deed.isForged

/-- The trace of any calls replays the stream. -/
theorem Stream.At.traced {α γ : Type} {call : γ → Stream → Outcome StreamFault Stream (Option α)}
    {deed : γ → Except StreamFault (Option α) → Deed} {first : Stream}
    (hdid : ∀ (c : γ) (s : Stream), s.Did (deed c (call c s).result) (call c s))
    (hat : first.At first {}) (hphase : first.phase = .streaming) (calls : List γ) :
    Traced call deed first calls := by
  obtain ⟨hreports, -⟩ := hat.replays hdid calls
  have htrace : Stream.trace call first calls = .streamBegun first.ceiling first.maxChunkLen ::
      Position.replay first.ceiling.toNat {} (Course.deeds call deed first calls) :=
    congrArg (_ :: ·) hreports
  refine ⟨⟨_, htrace, Position.kinds_replay _ _⟩, htrace, ?_, ?_, ?_, ?_, ?_, ?_⟩
  · intro front _ _
    exact (hat.replays hdid front).2
  · intro front c _ _
    exact ((hat.replays hdid front).2.step (hdid c _)).1
  · rw [htrace, List.filter_cons_of_neg Bool.false_ne_true, Position.filter_isRotation_replay]
    simp only [Nat.zero_add]
  · obtain ⟨front, hfront, hnone⟩ := Course.reports_of_streaming hdid calls hphase
    refine ⟨first.begun ++ front, ?_, ?_⟩
    · rw [Stream.trace, hfront, List.append_assoc]
    · intro e he
      rcases List.mem_append.mp he with he | he
      · rw [List.mem_singleton.mp he]
        exact Bool.false_ne_true
      · exact hnone e he
  · intro front c back length _ hforged
    have hcall := hdid c (Course.state call first front)
    rw [hforged] at hcall
    generalize call c (Course.state call first front) = o at hcall
    cases hcall
    rfl
  · rw [htrace, List.countP_cons_of_neg Bool.false_ne_true, Position.countP_isRejection_replay]

/-! ## Two peers -/

/-- The call on the sender in a move. -/
def Move.call? : Move → Option SenderCall
  | .call c => some c
  | .offer .. => none

namespace Peers

/-- The call on the receiver that comes of a move. -/
def relayed? (p : Peers) : Move → Option ReceiverCall
  | .call c => c.relayed (c.on p.sender).result
  | .offer sealed aad => some (.pull sealed aad)

/-- **The calls on the receiver** that come of moves made one after the other. -/
def relays (p : Peers) : List Move → List ReceiverCall
  | [] => []
  | m :: ms => (p.relayed? m).toList ++ relays (p.exchange m).peers ms

variable {p : Peers}

/-- What a move makes of both sides is what these calls make of them. -/
theorem peers_exchange (p : Peers) (m : Move) :
    (p.exchange m).peers =
      ⟨Course.state SenderCall.on p.sender m.call?.toList,
        Course.state ReceiverCall.on p.receiver (p.relayed? m).toList⟩ := by
  cases m with
  | offer => rfl
  | call c =>
    rw [exchange, relayed?]
    cases c.relayed (c.on p.sender).result <;> rfl

/-- **One move** lets both sides report the same of rotations and of the end. -/
theorem shared_exchange (h : p.sender.InStep p.receiver) (m : Move)
    (hfits : (p.exchange m).Fits p.receiver.maxChunkLen) (hnoise : (p.exchange m).NoiseRefused) :
    (Course.reports SenderCall.on p.sender m.call?.toList).filter Event.isShared =
      (Course.reports ReceiverCall.on p.receiver (p.relayed? m).toList).filter Event.isShared := by
  cases m with
  | offer sealed aad =>
    -- what is refused reports a forged chunk at most
    obtain ⟨fault, hfault⟩ := hnoise sealed aad rfl
    have hdid := (ReceiverCall.pull sealed aad).did p.receiver
    have hresult : ((ReceiverCall.pull sealed aad).on p.receiver).result = .error fault :=
      Option.some.inj hfault
    simp only [Move.call?, relayed?, Option.toList_none, Option.toList_some, Course.reports_cons]
    generalize (ReceiverCall.pull sealed aad).on p.receiver = o at hdid hresult ⊢
    generalize (ReceiverCall.pull sealed aad).deed o.result = d at hdid
    cases hdid with
    | refused => rfl
    | forged => rfl
    | rekeyed => cases hresult
    | passed => cases hresult
  | call c =>
    have hwent := c.went p.sender
    simp only [Move.call?, relayed?, Option.toList_some, Course.reports_cons]
    rw [exchange] at hfits
    generalize c.on p.sender = o at hfits hwent ⊢
    cases hwent with
    | refused => rfl
    | rekeyed _ hphase =>
      simp only [SenderCall.relayed, Option.toList_some, Course.reports_cons,
        h.rekey_mirrored hphase, h.rotate.epoch]
      rfl
    | @emitted tag _ hphase =>
      obtain ⟨hlimit, hsize⟩ := hfits c _ rfl rfl
      have hevents : (p.receiver.advance tag).2 = (p.sender.advance tag).2 := by
        rw [h.eq_limited, Stream.InStep.advance_limited]
      simp only [SenderCall.relayed, Option.toList_some, Course.reports_cons,
        h.chunk_pulled hphase hlimit hsize, hevents]
      rfl

/-- **A conversation** lets both sides report the same of rotations and of the end. -/
theorem shared_conversation {limit : UInt64} (moves : List Move) :
    ∀ {p : Peers}, p.sender.InStep p.receiver → p.receiver.maxChunkLen = limit →
      (∀ x ∈ p.conversation moves, x.Fits limit) →
      (∀ x ∈ p.conversation moves, x.NoiseRefused) →
      (Course.reports SenderCall.on p.sender (moves.filterMap Move.call?)).filter Event.isShared =
        (Course.reports ReceiverCall.on p.receiver (p.relays moves)).filter Event.isShared := by
  induction moves with
  | nil =>
    intro p _ _ _ _
    rfl
  | cons m ms ih =>
    intro p h hlimit hfits hnoise
    have hfirst := hfits _ (List.mem_cons_self ..)
    have hrefused := hnoise _ (List.mem_cons_self ..)
    rw [← hlimit] at hfirst
    obtain ⟨-, hstep, hkept⟩ := exchange_inStep h m hfirst hrefused
    have hlater := ih hstep (hkept.trans hlimit) (fun x hx => hfits x (List.mem_cons_of_mem _ hx))
      (fun x hx => hnoise x (List.mem_cons_of_mem _ hx))
    have hcalls : (m :: ms).filterMap Move.call? =
        m.call?.toList ++ ms.filterMap Move.call? := by
      cases m <;> rfl
    rw [hcalls, relays, Course.reports_append, Course.reports_append, List.filter_append,
      List.filter_append, shared_exchange h m hfirst hrefused]
    rw [peers_exchange] at hlater ⊢
    rw [hlater]

end Peers

/-- **A move that suits any state:** what is sent is within the limit, and what is offered besides
is too short for a chunk. -/
def Move.Suits (limit : UInt64) : Move → Prop
  | .call c => c.plaintext.length ≤ limit.toNat ∧ c.plaintext.length + chunkOverhead < UInt64.size
  | .offer sealed _ => sealed.length < chunkOverhead

instance (limit : UInt64) (m : Move) : Decidable (m.Suits limit) :=
  match m with
  | .call c => inferInstanceAs (Decidable (c.plaintext.length ≤ limit.toNat ∧
      c.plaintext.length + chunkOverhead < UInt64.size))
  | .offer sealed _ => inferInstanceAs (Decidable (sealed.length < chunkOverhead))

/-- In a conversation of such moves everything fits, and what is offered besides is refused. -/
theorem Peers.conversation_suits {limit : UInt64} {moves : List Move}
    (h : ∀ m ∈ moves, m.Suits limit) (p : Peers) :
    (∀ x ∈ p.conversation moves, x.Fits limit) ∧ ∀ x ∈ p.conversation moves, x.NoiseRefused := by
  constructor
  · refine forall_conversation moves (fun q m hm => ?_) p
    cases m with
    | call c => exact exchange_fits (h _ hm).1 (h _ hm).2
    | offer =>
      intro _ _ hmove
      rw [move_exchange] at hmove
      cases hmove
  · refine forall_conversation moves (fun q m hm => ?_) p
    cases m with
    | call c =>
      intro _ _ hmove
      rw [move_exchange] at hmove
      cases hmove
    | offer => exact exchange_noiseRefused (h _ hm)

/-! ## Both directions -/

/-- **The trace replays the stream,** on either side and for any calls, whether they fail or not:
the settings come first, the rotations are numbered in order, each forged chunk is reported where it
was offered, the end is reported last and once, and all of this can be told from what the callers
see. If the two sides agree on the number of chunks per subkey, once it is brought into the accepted
range, and what the sender emits is within the receiver's limit, then in each conversation both
report the same of their rotations and of the end, whatever else the receiver refuses. -/
theorem trace_replays_the_stream {ρ : Type} [Entropy ρ] {random : ρ} {header : Header}
    (hdraw : (Entropy.draw random 24).1 = .ok header) (key : SessionKey) (sc rc : Config) :
    ((Stream.sender key random sc).result = .ok (header, .fresh key header sc) ∧
        (Stream.sender key random sc).events = (Stream.fresh key header sc).begun ∧
        ∀ calls, Traced SenderCall.on SenderCall.deed (.fresh key header sc) calls) ∧
      (Stream.receiver key header.bytes rc = .ok (.fresh key header rc) ∧
        ∀ calls, Traced ReceiverCall.on ReceiverCall.deed (.fresh key header rc) calls) ∧
      (max 1 (min sc.rekeyInterval.toNat Config.maxRekeyInterval.toNat) =
          max 1 (min rc.rekeyInterval.toNat Config.maxRekeyInterval.toNat) →
        ∀ moves : List Move,
          (∀ x ∈ Peers.conversation ⟨.fresh key header sc, .fresh key header rc⟩ moves,
            x.Fits rc.maxChunkLen) →
          (∀ x ∈ Peers.conversation ⟨.fresh key header sc, .fresh key header rc⟩ moves,
            x.NoiseRefused) →
          (Stream.trace SenderCall.on (.fresh key header sc)
              (moves.filterMap Move.call?)).filter Event.isShared =
            (Stream.trace ReceiverCall.on (.fresh key header rc)
              (Peers.relays ⟨.fresh key header sc, .fresh key header rc⟩ moves)).filter
                Event.isShared) := by
  refine ⟨⟨Stream.sender_eq_fresh hdraw key sc, Stream.events_sender hdraw key sc, ?_⟩,
    ⟨Stream.receiver_eq_fresh key header rc, ?_⟩, ?_⟩
  · exact Stream.At.traced SenderCall.did (Stream.At.fresh key header sc) rfl
  · exact Stream.At.traced ReceiverCall.did (Stream.At.fresh key header rc) rfl
  · intro hclamp moves hfits hnoise
    have hceiling : sc.ceiling = rc.ceiling := by
      apply UInt32.toNat.inj
      rw [Config.toNat_ceiling, Config.toNat_ceiling, hclamp]
    have hshared := Peers.shared_conversation moves (Stream.InStep.fresh key header hceiling) rfl
      hfits hnoise
    rw [Stream.trace, Stream.trace, List.filter_append, List.filter_append]
    exact congrArg ([] ++ ·) hshared

/-- A tape of zeros gives a header. With room for one chunk in each epoch, asked for as zero by one
side and as one by the other, both report the same of a forced rotation, of a replaced subkey and of
the end, with noise and a failed call between them. -/
theorem trace_replays_the_stream_at_the_least_intervals :
    (Entropy.draw (Tape.mk (Octets.zero 24).bytes) 24).1 = .ok (Octets.zero 24) ∧
      Traced SenderCall.on SenderCall.deed
        (.fresh (.zero 32) (.zero 24) { rekeyInterval := 0 })
        [.push [1] .message [], .pushRaw [] 9 [], .rekey, .finalize [] []] ∧
      Traced ReceiverCall.on ReceiverCall.deed
        (.fresh (.zero 32) (.zero 24) { rekeyInterval := 1 })
        [.pull [7] [], .pull (List.replicate 17 7) [], .rekey] ∧
      (Stream.trace SenderCall.on (.fresh (.zero 32) (.zero 24) { rekeyInterval := 0 })
          [.push [1] .message [], .pushRaw [] 9 [], .rekey, .finalize [] []]).filter
            Event.isShared =
        (Stream.trace ReceiverCall.on (.fresh (.zero 32) (.zero 24) { rekeyInterval := 1 })
          (Peers.relays ⟨.fresh (.zero 32) (.zero 24) { rekeyInterval := 0 },
              .fresh (.zero 32) (.zero 24) { rekeyInterval := 1 }⟩
            [.offer [7] [], .call (.push [1] .message []), .call (.pushRaw [] 9 []), .call .rekey,
              .call (.finalize [] [])])).filter Event.isShared := by
  have hdraw : (Entropy.draw (Tape.mk (Octets.zero 24).bytes) 24).1 = .ok (Octets.zero 24) := rfl
  have hsuits : ∀ m ∈ [Move.offer [7] [], .call (.push [1] .message []), .call (.pushRaw [] 9 []),
      .call .rekey, .call (.finalize [] [])], m.Suits 16777216 := by
    decide
  obtain ⟨⟨-, -, hsender⟩, ⟨-, hreceiver⟩, hshared⟩ :=
    trace_replays_the_stream hdraw (.zero 32) { rekeyInterval := 0 } { rekeyInterval := 1 }
  obtain ⟨hfits, hnoise⟩ := Peers.conversation_suits hsuits
    ⟨.fresh (.zero 32) (.zero 24) { rekeyInterval := 0 },
      .fresh (.zero 32) (.zero 24) { rekeyInterval := 1 }⟩
  exact ⟨hdraw, hsender _, hreceiver _, hshared (by decide) _ hfits hnoise⟩

end AeadStream
