import AeadStream.Config
import AeadStream.Outcome

/-!
# One direction of a stream

The state that turns plaintexts into sealed chunks or back. Both sides keep the same state and
move it in the same way (`Stream.advance`), so they stay in step as long as every chunk that is
sent is received. A chunk is sealed under the current subkey and a nonce that its place in the
epoch determines; what its tag asks for happens after it went through. A call that fails
changes nothing.
-/

namespace AeadStream

/-- **The state** of one direction of a stream. -/
structure Stream where
  /-- the key of this epoch -/
  subkey : Subkey
  /-- the nonce that all chunk nonces come from -/
  baseNonce : Nonce
  /-- chunks that went through in this epoch -/
  counter : UInt32
  /-- rotations so far -/
  epoch : UInt64
  /-- whether the final chunk went through -/
  phase : Phase
  /-- the counter's ceiling -/
  ceiling : UInt32
  /-- bytes of plaintext a chunk may hold -/
  maxChunkLen : UInt64
deriving DecidableEq

namespace Stream

/-! ## The course of a stream -/

/-- The state before the first chunk. -/
def initial (keys : StreamKeys) (config : Config) : Stream where
  subkey := keys.subkey
  baseNonce := keys.baseNonce
  counter := 0
  epoch := 0
  phase := .streaming
  ceiling := config.ceiling
  maxChunkLen := config.maxChunkLen

/-- What is reported of a new stream. -/
def begun (s : Stream) : List Event := [.streamBegun s.ceiling s.maxChunkLen]

/-- The nonce of the next chunk. -/
def nonce (s : Stream) : Nonce := chunkNonce s.baseNonce s.counter

/-- The next epoch: a new subkey and a counter at zero. The number of epochs stops at its
largest value. -/
def rotate (s : Stream) : Stream :=
  { s with
    subkey := rotateSubkey s.subkey s.baseNonce
    counter := 0
    epoch := if s.epoch = 18446744073709551615 then s.epoch else s.epoch + 1 }

/-- The end: the keys are overwritten with zeros. -/
def finish (s : Stream) : Stream :=
  { s with phase := .finalized, subkey := .zero 32, baseNonce := .zero 24 }

/-- The subkey is replaced after a chunk with this tag, or because the counter is at its
ceiling. -/
def rotateAndReport (s : Stream) (forced : Bool) : Stream × List Event :=
  let rotated := s.rotate
  (rotated, [.subkeyRotated rotated.epoch forced])

/-- **A chunk went through.** The counter moves on, and then the tag or the ceiling takes
effect. -/
def advance (s : Stream) (tag : Tag) : Stream × List Event :=
  let counted := { s with counter := s.counter + 1 }
  match tag with
  | .final => (counted.finish, [.streamFinalized counted.epoch counted.counter])
  | .rekey => counted.rotateAndReport false
  | .message | .push =>
    if counted.ceiling ≤ counted.counter then counted.rotateAndReport true else (counted, [])

/-! ## Calls -/

/-- **Replacing the subkey** without a chunk. Both sides have to do it at the same place. -/
def rekey (s : Stream) : Outcome StreamFault Stream Unit :=
  match s.phase with
  | .finalized => ⟨.error (.wrongPhase s.phase "rekey"), s, []⟩
  | .streaming =>
    let (rotated, events) := s.rotateAndReport false
    ⟨.ok (), rotated, events⟩

/-- **Sending** a chunk: its sealed form. The receiver needs the same associated data. -/
def push (s : Stream) (plaintext : Bytes) (tag : Tag) (aad : Bytes) :
    Outcome StreamFault Stream Bytes :=
  match s.phase with
  | .finalized => ⟨.error (.wrongPhase s.phase "push"), s, []⟩
  | .streaming =>
    if s.maxChunkLen.toNat < plaintext.length then
      ⟨.error (.tooLong plaintext.length s.maxChunkLen.toNat), s, []⟩
    else
      let (advanced, events) := s.advance tag
      ⟨.ok (sealChunk s.subkey s.nonce tag.toByte plaintext aad), advanced, events⟩

/-- Sending a chunk with the tag that a byte stands for. -/
def pushRaw (s : Stream) (plaintext : Bytes) (tag : UInt8) (aad : Bytes) :
    Outcome StreamFault Stream Bytes :=
  match Tag.ofByte tag with
  | .error fault => ⟨.error fault, s, []⟩
  | .ok tag => s.push plaintext tag aad

/-- Sending the final chunk. -/
def finalize (s : Stream) (plaintext aad : Bytes) : Outcome StreamFault Stream Bytes :=
  s.push plaintext .final aad

/-- The longest sealed chunk that this side receives. -/
def sealedLimit (s : Stream) : Nat := Config.sealedLimit s.maxChunkLen

/-- **Receiving** a chunk: its plaintext and its tag, if it is the next chunk of the stream. -/
def pull (s : Stream) (sealed aad : Bytes) : Outcome StreamFault Stream (Bytes × Tag) :=
  match s.phase with
  | .finalized => ⟨.error (.wrongPhase s.phase "pull"), s, []⟩
  | .streaming =>
    if sealed.length < chunkOverhead ∨ s.sealedLimit < sealed.length then
      ⟨.error (.malformedChunk sealed.length), s, []⟩
    else
      match openChunk s.subkey s.nonce sealed aad with
      | .error fault =>
        ⟨.error (.ofCipher fault), s, [.chunkRejected s.epoch s.counter sealed.length]⟩
      | .ok (raw, plaintext) =>
        match Tag.ofByte raw with
        | .error fault => ⟨.error fault, s, []⟩
        | .ok tag =>
          let (advanced, events) := s.advance tag
          ⟨.ok (plaintext, tag), advanced, events⟩

/-- A chunk that was received is seventeen bytes shorter than it was sealed. -/
theorem length_of_pull {s : Stream} {sealed aad plaintext : Bytes} {tag : Tag}
    (h : (s.pull sealed aad).result = .ok (plaintext, tag)) :
    plaintext.length + chunkOverhead = sealed.length := by
  unfold pull at h
  split at h
  · exact absurd h nofun
  · split at h
    · exact absurd h nofun
    · split at h
      · exact absurd h nofun
      · rename_i ho
        have hlen := length_of_openChunk ho
        split at h
        · exact absurd h nofun
        · obtain ⟨rfl, -⟩ := Prod.mk.inj (Except.ok.inj h)
          exact hlen

/-! ## Starting -/

/-- **A sender** under a fresh header, which the receiver has to be given. -/
def sender {ρ : Type} [Entropy ρ] (key : SessionKey) (source : ρ) (config : Config) :
    Outcome StreamFault ρ (Header × Stream) :=
  match StreamKeys.generate key source with
  | (.error fault, source) => ⟨.error fault, source, []⟩
  | (.ok (header, keys), source) =>
    let stream := initial keys config
    ⟨.ok (header, stream), source, stream.begun⟩

/-- **A receiver** for a stream that starts with the given header. -/
def receiver (key : SessionKey) (header : Bytes) (config : Config) :
    Except StreamFault Stream :=
  (StreamKeys.ofHeader key header).map fun keys => initial keys config

/-! ## Showing -/

/-- Which way a stream goes. -/
inductive Direction
  | sending
  | receiving
deriving DecidableEq

/-- The name of the direction. -/
def Direction.name : Direction → String
  | sending => "Push"
  | receiving => "Pull"

/-- The wording for programmers, which holds no key material. -/
def describe (s : Stream) (direction : Direction) : String :=
  Text.record "SecretStream"
    [("subkey", redactedSubkey),
     ("base_nonce", redactedBaseNonce),
     ("counter", toString s.counter.toNat),
     ("epoch", toString s.epoch.toNat),
     ("phase", s.phase.name),
     ("scheduler", describeCeiling s.ceiling),
     ("max_chunk_len", toString s.maxChunkLen.toNat),
     ("direction", "PhantomData<sealstream_core::stream::" ++ direction.name ++ ">")]

end Stream

end AeadStream
