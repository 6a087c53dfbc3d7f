import AeadStream.Proofs.Stream.Calls

/-!
# A receiver takes exactly what a sender gives

Whatever byte strings a receiver is offered, and in whatever order they come between its other
calls: those that it accepts are, one after the other, the chunks that a sender with the same key
emits for the plaintexts and tags that were received. The rest leave no trace. This needs no
assumption about the cipher, for opening is the exact inverse of sealing.

* `Stream.Exact` — what can be received at one place is what can be sent there;
* `receiver_accepts_what_is_sent` — the whole course of a receiver, replayed by a sender.
-/

namespace AeadStream

/-! ## The sender's side of a course -/

namespace ReceiverCall

/-- What a sender has to do for a receiver's call to go as it does, with what it then has to
emit; nothing for a call that is refused. -/
def counterpart (c : ReceiverCall) (s : Stream) : Option (SenderCall × Option Bytes) :=
  match c with
  | pull sealed aad =>
    match (s.pull sealed aad).result with
    | .ok (plaintext, tag) => some (.push plaintext tag aad, some sealed)
    | .error _ => none
  | rekey =>
    match s.rekey.result with
    | .ok () => some (.rekey, none)
    | .error _ => none

/-- **The transcript** of a course: what a sender has to do, call by call, and to emit. -/
def transcript (s : Stream) : List ReceiverCall → List (SenderCall × Option Bytes)
  | [] => []
  | c :: cs => (c.counterpart s).toList ++ transcript (c.on s).state cs

/-- The counterpart of a call emits what it has to and moves the stream in the same way. -/
theorem on_counterpart {c : ReceiverCall} {s : Stream} {call : SenderCall} {emitted : Option Bytes}
    (h : c.counterpart s = some (call, emitted)) :
    (call.on s).result = .ok emitted ∧ (call.on s).state = (c.on s).state := by
  cases c with
  | pull sealed aad =>
    have hpull := s.pulled sealed aad
    rw [counterpart] at h
    rw [on]
    generalize s.pull sealed aad = o at h hpull
    cases hpull with
    | finalized => cases h
    | malformed => cases h
    | forged => cases h
    | unknownTag => cases h
    | accepted hphase hlen hsealed =>
      obtain ⟨rfl, rfl⟩ := Prod.mk.inj (Option.some.inj h)
      subst hsealed
      rw [Stream.length_chunk, Stream.le_sealedLimit_iff] at hlen
      rw [SenderCall.on, Stream.push_of_le hphase hlen.1]
      exact ⟨rfl, rfl⟩
  | rekey =>
    rw [counterpart] at h
    cases hphase : s.phase with
    | streaming =>
      rw [Stream.rekey_of_streaming hphase] at h
      obtain ⟨rfl, rfl⟩ := Prod.mk.inj (Option.some.inj h)
      rw [SenderCall.on, on, Stream.rekey_of_streaming hphase]
      exact ⟨rfl, rfl⟩
    | finalized =>
      rw [Stream.rekey_of_finalized hphase] at h
      cases h

/-- A call without a counterpart was refused. -/
theorem state_of_no_counterpart {c : ReceiverCall} {s : Stream} (h : c.counterpart s = none) :
    (c.on s).state = s := by
  have herror : ∃ fault, (c.on s).result = .error fault := by
    cases c with
    | pull sealed aad =>
      rw [counterpart] at h
      rw [on]
      cases hr : (s.pull sealed aad).result with
      | error fault => exact ⟨fault, by rw [Outcome.result_map, hr]; rfl⟩
      | ok chunk =>
        rw [hr] at h
        cases h
    | rekey =>
      rw [counterpart] at h
      rw [on]
      cases hr : s.rekey.result with
      | error fault => exact ⟨fault, by rw [Outcome.result_map, hr]; rfl⟩
      | ok _ =>
        rw [hr] at h
        cases h
  obtain ⟨fault, hfault⟩ := herror
  exact (state_of_error hfault).1

/-- A sender in the same state carries out the transcript, emits what it has to, and ends in the
state of the receiver. -/
theorem course_transcript (calls : List ReceiverCall) (s : Stream) :
    Course.results SenderCall.on s ((transcript s calls).map Prod.fst) =
        (transcript s calls).map (fun x => .ok x.2) ∧
      Course.state SenderCall.on s ((transcript s calls).map Prod.fst) =
        Course.state ReceiverCall.on s calls := by
  induction calls generalizing s with
  | nil => exact ⟨rfl, rfl⟩
  | cons c cs ih =>
    obtain ⟨hresults, hstate⟩ := ih (c.on s).state
    rw [transcript, Course.state_cons]
    cases hc : c.counterpart s with
    | none =>
      -- a refused call is not in the transcript, and left the receiver where it was
      rw [state_of_no_counterpart hc] at hresults hstate ⊢
      exact ⟨hresults, hstate⟩
    | some x =>
      obtain ⟨call, emitted⟩ := x
      obtain ⟨hresult, hmove⟩ := on_counterpart hc
      simp only [Option.toList_some, List.singleton_append, List.map_cons, Course.results_cons,
        Course.state_cons, hresult, hmove]
      exact ⟨congrArg (Except.ok emitted :: ·) hresults, hstate⟩

end ReceiverCall

/-! ## One place in the stream -/

/-- **Exactness at one place.** The byte strings that are accepted here are those that sending
gives here, and each of the others is refused without a trace. -/
structure Stream.Exact (s : Stream) : Prop where
  /-- a call that is refused leaves everything as it was -/
  refused : ∀ (c : ReceiverCall) (fault : StreamFault), (c.on s).result = .error fault →
    (c.on s).state = s ∧ fault.Refusal
  /-- a byte string is received as a plaintext and a tag if and only if it is what sending these
  gives; its length is one that memory can hold -/
  received_iff_sent : ∀ (sealed aad plaintext : Bytes) (tag : Tag),
    (s.pull sealed aad).result = .ok (plaintext, tag) ↔
      (s.push plaintext tag aad).result = .ok sealed ∧ sealed.length < UInt64.size
  /-- of the strings that differ in the last sixteen bytes only, at most one is accepted -/
  one_mac : ∀ (front mac mac' aad plaintext : Bytes) (tag : Tag), mac.length = 16 →
    mac'.length = 16 → mac' ≠ mac → (s.pull (front ++ mac) aad).result = .ok (plaintext, tag) →
    (s.pull (front ++ mac') aad).result = .error .authentication

/-- Every state of a stream is exact. -/
theorem Stream.exact (s : Stream) : s.Exact where
  refused _ _ h := ReceiverCall.state_of_error h
  received_iff_sent sealed aad plaintext tag := by
    rw [pull_eq_ok_iff, push_eq_ok_iff]
    constructor
    · rintro ⟨hphase, hlen, rfl⟩
      rw [length_chunk, le_sealedLimit_iff] at hlen
      rw [length_chunk]
      exact ⟨⟨hphase, hlen.1, rfl⟩, hlen.2⟩
    · rintro ⟨⟨hphase, hlen, rfl⟩, hsize⟩
      rw [length_chunk] at hsize
      rw [length_chunk, le_sealedLimit_iff]
      exact ⟨hphase, ⟨hlen, hsize⟩, rfl⟩
  one_mac front mac mac' aad plaintext tag hmac hmac' hne h := by
    obtain ⟨hphase, hlen, hsealed⟩ := pull_eq_ok_iff.mp h
    have hopen := openChunk_append_of_ne hmac hmac' hne (openChunk_eq_ok_iff.mpr hsealed)
    have hsize : (front ++ mac').length = (front ++ mac).length := by
      simp only [List.length_append, hmac, hmac']
    have hover : chunkOverhead ≤ (front ++ mac).length := by
      rw [hsealed, length_chunk]
      omega
    rw [pull, hphase]
    simp only [hsize, hopen]
    rw [if_neg (by omega)]
    rfl

/-! ## The whole course -/

/-- **A sender replays** the calls on a receiver: it does what the transcript of the calls says. -/
structure Stream.Replays (sender receiver : Stream) (calls : List ReceiverCall) : Prop where
  /-- each step succeeds and emits the very bytes that were accepted -/
  emits : Course.results SenderCall.on sender
      ((ReceiverCall.transcript receiver calls).map Prod.fst) =
    (ReceiverCall.transcript receiver calls).map (fun x => .ok x.2)
  /-- both sides end in the same state -/
  state : Course.state SenderCall.on sender
      ((ReceiverCall.transcript receiver calls).map Prod.fst) =
    Course.state ReceiverCall.on receiver calls
  /-- and where they end, what can be received is what can be sent -/
  exact : (Course.state ReceiverCall.on receiver calls).Exact

/-- **A receiver accepts exactly what a sender sends.** Take any calls on a receiver. A sender
under the same key, header and settings that does what the transcript of the calls says succeeds
at each step, emits the very bytes that were accepted, and ends in the receiver's state. And the
place at which the calls end is exact: this is any place, for the calls are any. -/
theorem receiver_accepts_what_is_sent {ρ : Type} [Entropy ρ] {random : ρ} {header : Header}
    (hdraw : (Entropy.draw random 24).1 = .ok header) (key : SessionKey) (config : Config)
    (calls : List ReceiverCall) :
    ∃ receiver sender : Stream,
      Stream.receiver key header.bytes config = .ok receiver ∧
      (Stream.sender key random config).result = .ok (header, sender) ∧
      sender.Replays receiver calls := by
  refine ⟨.fresh key header config, .fresh key header config, Stream.receiver_eq_fresh _ _ _,
    Stream.sender_eq_fresh hdraw _ _, ?_⟩
  obtain ⟨hresults, hstate⟩ := ReceiverCall.course_transcript calls (.fresh key header config)
  exact ⟨hresults, hstate, Stream.exact _⟩

/-- A tape of zeros gives a header; of the calls the first is refused and the second accepted. -/
theorem receiver_accepts_what_is_sent_under_zeros :
    (Entropy.draw (Tape.mk (Octets.zero 24).bytes) 24).1 = .ok (Octets.zero 24) ∧
      ∃ receiver sender : Stream,
        Stream.receiver (.zero 32) (Octets.zero 24).bytes {} = .ok receiver ∧
        (Stream.sender (.zero 32) (Tape.mk (Octets.zero 24).bytes) {}).result =
          .ok (.zero 24, sender) ∧
        sender.Replays receiver
          [.pull [0] [],
            .pull ((Stream.fresh (.zero 32) (.zero 24) {}).chunk [1, 2] .push []) [], .rekey] :=
  ⟨rfl, receiver_accepts_what_is_sent rfl _ _ _⟩

end AeadStream
