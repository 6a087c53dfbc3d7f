import AeadStream.Proofs.Course
import AeadStream.Proofs.Stream.Step

/-!
# Calls on a stream as data

A sender's and a receiver's calls are values here, so that theorems can speak of all sequences of
them, failed calls included. Both sides move in the same two ways, by a chunk that went through
and by a replaced subkey, and a call that is refused leaves the stream as it was.
-/

namespace AeadStream

/-! ## Sending -/

/-- **A call on a sender.** -/
inductive SenderCall
  | push (plaintext : Bytes) (tag : Tag) (aad : Bytes)
  | pushRaw (plaintext : Bytes) (raw : UInt8) (aad : Bytes)
  | finalize (plaintext aad : Bytes)
  | rekey
deriving DecidableEq

namespace SenderCall

/-- Makes the call: the chunk that it emits, if it emits one. -/
def on (c : SenderCall) (s : Stream) : Outcome StreamFault Stream (Option Bytes) :=
  match c with
  | push plaintext tag aad => (s.push plaintext tag aad).map some
  | pushRaw plaintext raw aad => (s.pushRaw plaintext raw aad).map some
  | finalize plaintext aad => (s.finalize plaintext aad).map some
  | rekey => s.rekey.map fun _ => none

/-- The plaintext that the call is to send. -/
def plaintext : SenderCall → Bytes
  | push plaintext _ _ | pushRaw plaintext _ _ | finalize plaintext _ => plaintext
  | rekey => []

/-- The associated data of the call. -/
def aad : SenderCall → Bytes
  | push _ _ aad | pushRaw _ _ aad | finalize _ aad => aad
  | rekey => []

/-- The tag under which the call is to send, if it is to send and the tag is known. -/
def tag? : SenderCall → Option Tag
  | push _ tag _ => some tag
  | pushRaw _ raw _ => Tag.ofByte? raw
  | finalize .. => some .final
  | rekey => none

/-- **How a sender's call can go.** -/
inductive Went (c : SenderCall) (s : Stream) : Outcome StreamFault Stream (Option Bytes) → Prop
  /-- it is refused and nothing changes -/
  | refused (fault : StreamFault) : Went c s ⟨.error fault, s, []⟩
  /-- it replaces the subkey -/
  | rekeyed (hcall : c = .rekey) (hphase : s.phase = .streaming) :
      Went c s ⟨.ok none, s.rotate, [.subkeyRotated s.rotate.epoch false]⟩
  /-- it emits the chunk of this place -/
  | emitted {tag : Tag} (htag : c.tag? = some tag) (hphase : s.phase = .streaming)
      (hlen : c.plaintext.length ≤ s.maxChunkLen.toNat) :
      Went c s
        ⟨.ok (some (s.chunk c.plaintext tag c.aad)), (s.advance tag).1, (s.advance tag).2⟩

/-- A call that sends under a known tag goes as sending goes. -/
theorem went_of_pushed {c : SenderCall} {s : Stream} {tag : Tag} (htag : c.tag? = some tag)
    {o : Outcome StreamFault Stream Bytes} (h : Stream.Pushed s c.plaintext tag c.aad o) :
    Went c s (o.map some) := by
  cases h with
  | finalized => exact .refused _
  | tooLong => exact .refused _
  | emitted hphase hlen => exact .emitted htag hphase hlen

/-- Every call goes in one of these ways. -/
theorem went (c : SenderCall) (s : Stream) : Went c s (c.on s) := by
  cases c with
  | push plaintext tag aad => exact went_of_pushed rfl (s.pushed plaintext tag aad)
  | finalize plaintext aad => exact went_of_pushed rfl (s.pushed plaintext .final aad)
  | pushRaw plaintext raw aad =>
    cases htag : Tag.ofByte? raw with
    | none =>
      have hon : (pushRaw plaintext raw aad).on s = ⟨.error (.unknownTag raw), s, []⟩ := by
        simp [on, Stream.pushRaw, Tag.ofByte, htag, Outcome.map, Except.map]
      rw [hon]
      exact .refused _
    | some tag =>
      have hon : (pushRaw plaintext raw aad).on s = (s.push plaintext tag aad).map some := by
        simp [on, Stream.pushRaw, Tag.ofByte, htag]
      rw [hon]
      exact went_of_pushed (c := pushRaw plaintext raw aad) htag (s.pushed plaintext tag aad)
  | rekey =>
    cases hphase : s.phase with
    | streaming =>
      rw [on, Stream.rekey_of_streaming hphase]
      exact .rekeyed rfl hphase
    | finalized =>
      rw [on, Stream.rekey_of_finalized hphase]
      exact .refused _

end SenderCall

/-! ## Receiving -/

/-- **The faults** with which a receiver refuses a call. -/
inductive StreamFault.Refusal : StreamFault → Prop
  | wrongPhase (operation : String) : Refusal (.wrongPhase .finalized operation)
  | malformedChunk (length : Nat) : Refusal (.malformedChunk length)
  | authentication : Refusal .authentication
  | unknownTag (raw : UInt8) : Refusal (.unknownTag raw)

/-- **A call on a receiver.** -/
inductive ReceiverCall
  | pull (sealed aad : Bytes)
  | rekey
deriving DecidableEq

namespace ReceiverCall

/-- Makes the call: the plaintext and the tag that it receives, if it receives a chunk. -/
def on (c : ReceiverCall) (s : Stream) : Outcome StreamFault Stream (Option (Bytes × Tag)) :=
  match c with
  | pull sealed aad => (s.pull sealed aad).map some
  | rekey => s.rekey.map fun _ => none

/-- **How a receiver's call can go.** -/
inductive Went (c : ReceiverCall) (s : Stream) :
    Outcome StreamFault Stream (Option (Bytes × Tag)) → Prop
  /-- it is refused and nothing changes -/
  | refused {fault : StreamFault} (hfault : fault.Refusal) (events : List Event)
      (hevents : ∀ e ∈ events, ∃ epoch counter length, e = .chunkRejected epoch counter length) :
      Went c s ⟨.error fault, s, events⟩
  /-- it replaces the subkey -/
  | rekeyed (hcall : c = .rekey) (hphase : s.phase = .streaming) :
      Went c s ⟨.ok none, s.rotate, [.subkeyRotated s.rotate.epoch false]⟩
  /-- it receives the chunk of this place -/
  | accepted {sealed aad plaintext : Bytes} {tag : Tag} (hcall : c = .pull sealed aad)
      (hphase : s.phase = .streaming) (hlen : sealed.length ≤ s.sealedLimit)
      (hsealed : sealed = s.chunk plaintext tag aad) :
      Went c s ⟨.ok (some (plaintext, tag)), (s.advance tag).1, (s.advance tag).2⟩

/-- Every call goes in one of these ways. -/
theorem went (c : ReceiverCall) (s : Stream) : Went c s (c.on s) := by
  cases c with
  | pull sealed aad =>
    have hpull := s.pulled sealed aad
    rw [on]
    generalize s.pull sealed aad = o at hpull
    cases hpull with
    | finalized => exact .refused (.wrongPhase _) [] (by simp)
    | malformed => exact .refused (.malformedChunk _) [] (by simp)
    | forged => exact .refused .authentication _ (by simp)
    | unknownTag => exact .refused (.unknownTag _) [] (by simp)
    | accepted hphase hlen hsealed => exact .accepted rfl hphase hlen hsealed
  | rekey =>
    cases hphase : s.phase with
    | streaming =>
      rw [on, Stream.rekey_of_streaming hphase]
      exact .rekeyed rfl hphase
    | finalized =>
      rw [on, Stream.rekey_of_finalized hphase]
      exact .refused (.wrongPhase _) [] (by simp)

/-- **A refused call changes nothing,** and is refused for one of four reasons. -/
theorem state_of_error {c : ReceiverCall} {s : Stream} {fault : StreamFault}
    (h : (c.on s).result = .error fault) : (c.on s).state = s ∧ fault.Refusal := by
  have hwent := c.went s
  generalize c.on s = o at h hwent
  cases hwent with
  | refused hfault =>
    obtain rfl := Except.error.inj h
    exact ⟨rfl, hfault⟩
  | rekeyed => cases h
  | accepted => cases h

end ReceiverCall

end AeadStream
