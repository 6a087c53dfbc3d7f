import AeadStream.Proofs.Sealing
import AeadStream.Stream

/-!
# What one call does to a stream

Said once for each call: `Stream.Pushed`, `Stream.Pulled` and `Stream.Advanced` list the ways in
which sending, receiving and moving on can go, with everything that holds in each, and later
proofs take a call apart by these cases only.

* `push_eq_ok_iff`, `pull_eq_ok_iff` — what sending gives is what receiving takes: the chunk of
  this place in the stream, `Stream.chunk`.
-/

namespace AeadStream

/-- The ceiling is the number of chunks per subkey that was asked for, brought between one and
the largest accepted number. -/
theorem Config.toNat_ceiling (config : Config) :
    config.ceiling.toNat = max 1 (min config.rekeyInterval.toNat maxRekeyInterval.toNat) := by
  have hmax : maxRekeyInterval.toNat = 4294967279 := rfl
  unfold ceiling ceilingFor
  split
  · next h => rw [h]; rfl
  · next h =>
    have hpos : config.rekeyInterval.toNat ≠ 0 := fun h0 => h (UInt32.toNat.inj h0)
    split
    · next hlt =>
      rw [UInt32.lt_iff_toNat_lt] at hlt
      omega
    · next hge =>
      rw [UInt32.lt_iff_toNat_lt] at hge
      omega

namespace Stream

variable {s : Stream} {plaintext sealed aad : Bytes} {tag : Tag}

/-! ## Where a stream begins -/

/-- **The stream under a header** before its first chunk. Both sides begin with it. -/
def fresh (key : SessionKey) (header : Header) (config : Config) : Stream :=
  initial (StreamKeys.derive key header.bytes) config

/-- A receiver that was given a whole header begins with the stream under it. -/
theorem receiver_eq_fresh (key : SessionKey) (header : Header) (config : Config) :
    receiver key header.bytes config = .ok (fresh key header config) := by
  rw [receiver, StreamKeys.ofHeader, Octets.ofBytes?_bytes]
  rfl

/-- A sender that drew a header begins with the stream under it. -/
theorem sender_eq_fresh {ρ : Type} [Entropy ρ] {random : ρ} {header : Header}
    (hdraw : (Entropy.draw random 24).1 = .ok header) (key : SessionKey) (config : Config) :
    (sender key random config).result = .ok (header, fresh key header config) := by
  rcases hrandom : Entropy.draw random 24 with ⟨drawn, random'⟩
  rw [hrandom] at hdraw
  obtain rfl : drawn = .ok header := hdraw
  rw [sender, StreamKeys.generate, hrandom]
  rfl

/-- Without a header there is no sender. -/
theorem sender_of_error {ρ : Type} [Entropy ρ] {random : ρ} {reason : String}
    (hdraw : (Entropy.draw random 24).1 = .error reason) (key : SessionKey) (config : Config) :
    (sender key random config).result = .error (.noRandomness reason) := by
  rcases hrandom : Entropy.draw random 24 with ⟨drawn, random'⟩
  rw [hrandom] at hdraw
  obtain rfl : drawn = .error reason := hdraw
  rw [sender, StreamKeys.generate, hrandom]

/-! ## The next chunk -/

/-- **The chunk** that carries a plaintext and a tag at this place of the stream. -/
def chunk (s : Stream) (plaintext : Bytes) (tag : Tag) (aad : Bytes) : Bytes :=
  sealChunk s.subkey s.nonce tag.toByte plaintext aad

@[simp] theorem length_chunk (s : Stream) (plaintext : Bytes) (tag : Tag) (aad : Bytes) :
    (s.chunk plaintext tag aad).length = plaintext.length + chunkOverhead :=
  length_sealChunk _ _ _ _ _

/-- A chunk is short enough for the receiver if its plaintext is within the limit, as far as
lengths go. -/
theorem le_sealedLimit_iff {n : Nat} :
    n + chunkOverhead ≤ s.sealedLimit ↔
      n ≤ s.maxChunkLen.toNat ∧ n + chunkOverhead < UInt64.size := by
  have hsize : 0 < UInt64.size := by decide
  simp only [sealedLimit, Config.sealedLimit]
  omega

/-! ## Moving on -/

/-- **How a stream moves on** after a chunk with this tag went through. -/
inductive Advanced (s : Stream) : Tag → Stream × List Event → Prop
  /-- the next place in the epoch, if the counter stays below its ceiling -/
  | counted {tag : Tag} (htag : tag = .message ∨ tag = .push)
      (hlt : s.counter + 1 < s.ceiling) :
      Advanced s tag ({ s with counter := s.counter + 1 }, [])
  /-- the next epoch, because the counter reached its ceiling -/
  | forced {tag : Tag} (htag : tag = .message ∨ tag = .push)
      (hle : s.ceiling ≤ s.counter + 1) :
      Advanced s tag (s.rotate, [.subkeyRotated s.rotate.epoch true])
  /-- the next epoch, because the tag asks for it -/
  | asked : Advanced s .rekey (s.rotate, [.subkeyRotated s.rotate.epoch false])
  /-- the end -/
  | ended : Advanced s .final
      ({ s with counter := s.counter + 1 }.finish, [.streamFinalized s.epoch (s.counter + 1)])

/-- Every chunk moves the stream on in one of these ways. -/
theorem advanced (s : Stream) (tag : Tag) : Advanced s tag (s.advance tag) := by
  have hcount : ∀ tag, tag = Tag.message ∨ tag = Tag.push → Advanced s tag
      (if s.ceiling ≤ s.counter + 1 then
        (s.rotate, [.subkeyRotated s.rotate.epoch true])
      else ({ s with counter := s.counter + 1 }, [])) := by
    intro tag htag
    by_cases hle : s.ceiling ≤ s.counter + 1
    · rw [if_pos hle]
      exact .forced htag hle
    · rw [if_neg hle]
      exact .counted htag (UInt32.not_le.mp hle)
  cases tag with
  | message => exact hcount .message (.inl rfl)
  | push => exact hcount .push (.inr rfl)
  | rekey => exact .asked
  | final => exact .ended

@[simp] theorem maxChunkLen_advance (s : Stream) (tag : Tag) :
    (s.advance tag).1.maxChunkLen = s.maxChunkLen := by
  have hadv := s.advanced tag
  generalize s.advance tag = moved at hadv ⊢
  cases hadv <;> rfl

/-- Only the final chunk ends a stream. -/
theorem phase_advance {tag : Tag} (h : tag ≠ .final) : (s.advance tag).1.phase = s.phase := by
  have hadv := s.advanced tag
  generalize s.advance tag = moved at hadv ⊢
  cases hadv with
  | counted => rfl
  | forced => rfl
  | asked => rfl
  | ended => exact absurd rfl h

/-! ## Replacing the subkey -/

theorem rekey_of_streaming (h : s.phase = .streaming) :
    s.rekey = ⟨.ok (), s.rotate, [.subkeyRotated s.rotate.epoch false]⟩ := by
  rw [rekey, h]
  rfl

theorem rekey_of_finalized (h : s.phase = .finalized) :
    s.rekey = ⟨.error (.wrongPhase .finalized "rekey"), s, []⟩ := by
  rw [rekey, h]

/-! ## Sending -/

/-- **How sending can go.** -/
inductive Pushed (s : Stream) (plaintext : Bytes) (tag : Tag) (aad : Bytes) :
    Outcome StreamFault Stream Bytes → Prop
  /-- the stream is at its end -/
  | finalized (hphase : s.phase = .finalized) :
      Pushed s plaintext tag aad ⟨.error (.wrongPhase .finalized "push"), s, []⟩
  /-- the plaintext is longer than a chunk may be -/
  | tooLong (hphase : s.phase = .streaming) (hlen : s.maxChunkLen.toNat < plaintext.length) :
      Pushed s plaintext tag aad
        ⟨.error (.tooLong plaintext.length s.maxChunkLen.toNat), s, []⟩
  /-- the chunk of this place is emitted and the stream moves on -/
  | emitted (hphase : s.phase = .streaming) (hlen : plaintext.length ≤ s.maxChunkLen.toNat) :
      Pushed s plaintext tag aad
        ⟨.ok (s.chunk plaintext tag aad), (s.advance tag).1, (s.advance tag).2⟩

/-- Sending goes in one of these ways. -/
theorem pushed (s : Stream) (plaintext : Bytes) (tag : Tag) (aad : Bytes) :
    Pushed s plaintext tag aad (s.push plaintext tag aad) := by
  cases hphase : s.phase with
  | finalized =>
    rw [push, hphase]
    exact .finalized hphase
  | streaming =>
    rw [push, hphase]
    by_cases hlen : s.maxChunkLen.toNat < plaintext.length
    · simp only [if_pos hlen]
      exact .tooLong hphase hlen
    · simp only [if_neg hlen]
      exact .emitted hphase (Nat.not_lt.mp hlen)

/-- Sending succeeds on a stream that has not ended, within the limit. -/
theorem push_of_le (hphase : s.phase = .streaming)
    (hlen : plaintext.length ≤ s.maxChunkLen.toNat) :
    s.push plaintext tag aad =
      ⟨.ok (s.chunk plaintext tag aad), (s.advance tag).1, (s.advance tag).2⟩ := by
  rw [push, hphase]
  simp only [if_neg (Nat.not_lt.mpr hlen)]
  rfl

/-- **What sending gives,** and when. -/
theorem push_eq_ok_iff :
    (s.push plaintext tag aad).result = .ok sealed ↔
      s.phase = .streaming ∧ plaintext.length ≤ s.maxChunkLen.toNat ∧
        sealed = s.chunk plaintext tag aad := by
  constructor
  · intro h
    have hpush := s.pushed plaintext tag aad
    generalize s.push plaintext tag aad = o at h hpush
    cases hpush with
    | finalized => cases h
    | tooLong => cases h
    | emitted hphase hlen => exact ⟨hphase, hlen, (Except.ok.inj h).symm⟩
  · rintro ⟨hphase, hlen, rfl⟩
    rw [push_of_le hphase hlen]

/-! ## Receiving -/

/-- **How receiving can go.** -/
inductive Pulled (s : Stream) (sealed aad : Bytes) :
    Outcome StreamFault Stream (Bytes × Tag) → Prop
  /-- the stream is at its end -/
  | finalized (hphase : s.phase = .finalized) :
      Pulled s sealed aad ⟨.error (.wrongPhase .finalized "pull"), s, []⟩
  /-- no chunk of this stream has this length -/
  | malformed (hphase : s.phase = .streaming)
      (hlen : sealed.length < chunkOverhead ∨ s.sealedLimit < sealed.length) :
      Pulled s sealed aad ⟨.error (.malformedChunk sealed.length), s, []⟩
  /-- the bytes were not sealed for this place with this associated data -/
  | forged (hphase : s.phase = .streaming)
      (hlen : chunkOverhead ≤ sealed.length ∧ sealed.length ≤ s.sealedLimit)
      (hne : ∀ raw plaintext, sealed ≠ sealChunk s.subkey s.nonce raw plaintext aad) :
      Pulled s sealed aad
        ⟨.error .authentication, s, [.chunkRejected s.epoch s.counter sealed.length]⟩
  /-- the bytes were sealed for this place with a byte that stands for no tag -/
  | unknownTag {raw : UInt8} {plaintext : Bytes} (hphase : s.phase = .streaming)
      (hlen : sealed.length ≤ s.sealedLimit)
      (hsealed : sealed = sealChunk s.subkey s.nonce raw plaintext aad)
      (hraw : Tag.ofByte? raw = none) :
      Pulled s sealed aad ⟨.error (.unknownTag raw), s, []⟩
  /-- the bytes are a chunk of this place and the stream moves on -/
  | accepted {plaintext : Bytes} {tag : Tag} (hphase : s.phase = .streaming)
      (hlen : sealed.length ≤ s.sealedLimit) (hsealed : sealed = s.chunk plaintext tag aad) :
      Pulled s sealed aad ⟨.ok (plaintext, tag), (s.advance tag).1, (s.advance tag).2⟩

/-- Receiving goes in one of these ways. -/
theorem pulled (s : Stream) (sealed aad : Bytes) :
    Pulled s sealed aad (s.pull sealed aad) := by
  cases hphase : s.phase with
  | finalized =>
    rw [pull, hphase]
    exact .finalized hphase
  | streaming =>
    rw [pull, hphase]
    by_cases hlen : sealed.length < chunkOverhead ∨ s.sealedLimit < sealed.length
    · simp only [if_pos hlen]
      exact .malformed hphase hlen
    · simp only [if_neg hlen]
      obtain ⟨hmin, hmax⟩ := not_or.mp hlen
      cases hopen : openChunk s.subkey s.nonce sealed aad with
      | error fault =>
        rcases openChunk_eq_error hopen with ⟨hshort, -⟩ | ⟨-, rfl⟩
        · exact absurd hshort hmin
        · refine .forged hphase ⟨Nat.not_lt.mp hmin, Nat.not_lt.mp hmax⟩ fun raw plaintext h => ?_
          rw [openChunk_eq_ok_iff.mpr h] at hopen
          cases hopen
      | ok opened =>
        obtain ⟨raw, plaintext⟩ := opened
        have hsealed := openChunk_eq_ok_iff.mp hopen
        cases htag : Tag.ofByte? raw with
        | none =>
          simp only [Tag.ofByte, htag]
          exact .unknownTag hphase (Nat.not_lt.mp hmax) hsealed htag
        | some tag =>
          simp only [Tag.ofByte, htag]
          rw [Tag.ofByte?_eq_some_iff.mp htag] at hsealed
          exact .accepted hphase (Nat.not_lt.mp hmax) hsealed

/-- The chunk of this place is received, if it is not longer than this side receives. -/
theorem pull_chunk (hphase : s.phase = .streaming)
    (hlen : plaintext.length + chunkOverhead ≤ s.sealedLimit) :
    s.pull (s.chunk plaintext tag aad) aad =
      ⟨.ok (plaintext, tag), (s.advance tag).1, (s.advance tag).2⟩ := by
  have hopen : openChunk s.subkey s.nonce (s.chunk plaintext tag aad) aad =
      .ok (tag.toByte, plaintext) := openChunk_eq_ok_iff.mpr rfl
  have hrange : ¬((s.chunk plaintext tag aad).length < chunkOverhead ∨
      s.sealedLimit < (s.chunk plaintext tag aad).length) := by
    rw [length_chunk]
    omega
  rw [pull, hphase]
  simp only [if_neg hrange, hopen, Tag.ofByte, Tag.ofByte?_toByte]

/-- **What receiving gives,** and when. -/
theorem pull_eq_ok_iff :
    (s.pull sealed aad).result = .ok (plaintext, tag) ↔
      s.phase = .streaming ∧ sealed.length ≤ s.sealedLimit ∧
        sealed = s.chunk plaintext tag aad := by
  constructor
  · intro h
    have hpull := s.pulled sealed aad
    generalize s.pull sealed aad = o at h hpull
    cases hpull with
    | finalized => cases h
    | malformed => cases h
    | forged => cases h
    | unknownTag => cases h
    | accepted hphase hlen hsealed =>
      obtain ⟨rfl, rfl⟩ := Prod.mk.inj (Except.ok.inj h)
      exact ⟨hphase, hlen, hsealed⟩
  · rintro ⟨hphase, hlen, rfl⟩
    rw [length_chunk] at hlen
    rw [pull_chunk hphase hlen]

end Stream

end AeadStream
