import AeadStream.Entropy
import AeadStream.Fault.Stream
import AeadStream.Hmac
import AeadStream.Text.Utf8

/-!
# The key schedule

A session key and the stream's header determine a subkey and a base nonce. The subkey is
replaced by a keyed hash of itself whenever the stream rotates; the base nonce stays, and the
nonce of a chunk is the base nonce with the chunk's counter mixed into its last four bytes.
-/

namespace AeadStream

/-- The secret that both sides of a stream share. -/
abbrev SessionKey := Octets 32

/-- The key of one epoch of a stream. -/
abbrev Subkey := Octets 32

/-- The nonce of one chunk. -/
abbrev Nonce := Octets 24

/-- What a stream starts with, in the clear. -/
abbrev Header := Octets 24

/-- The wording for programmers. -/
def Header.describe (header : Header) : String :=
  Text.application "Header" [Text.sequence (header.bytes.map fun b => toString b.toNat)]

/-- A subkey in that wording. -/
def redactedSubkey : String := Text.redacted "SubKey"

/-- A base nonce in that wording. -/
def redactedBaseNonce : String := Text.redacted "BaseNonce"

/-! ## Session keys -/

namespace SessionKey

/-- The session key that the given bytes are. -/
def ofBytes (bytes : Bytes) : Except CipherFault SessionKey :=
  match Octets.ofBytes? 32 bytes with
  | some key => .ok key
  | none => .error (.keyLength 32 bytes.length)

/-- A fresh session key. -/
def generate {ρ : Type} [Entropy ρ] (source : ρ) : Except CipherFault SessionKey × ρ :=
  let (drawn, source) := Entropy.draw source 32
  (drawn.mapError .noRandomness, source)

/-- The wording for programmers, which does not hold the key. -/
def describe (_ : SessionKey) : String := Text.redacted "SessionKey"

end SessionKey

/-! ## Keys of a stream -/

/-- **The keys of a stream:** the first subkey and the base nonce. -/
structure StreamKeys where
  subkey : Subkey
  baseNonce : Nonce
deriving DecidableEq

namespace StreamKeys

/-- The purpose under which the keys are derived. -/
def purpose : Bytes := Text.utf8 "sealstreamKeysV1"

/-- **Derived keys.** The header salts the session key; the first 56 bytes of the output are
the subkey and the base nonce. -/
def derive (key : SessionKey) (header : Bytes) : StreamKeys :=
  let output := Hkdf.expand (Hkdf.extract header key.bytes) purpose
  { subkey := output 0, baseNonce := (output 1).take 24 (by omega) }

/-- The keys for a header from the wire, whose length is checked. -/
def ofHeader (key : SessionKey) (header : Bytes) : Except StreamFault StreamKeys :=
  match Octets.ofBytes? 24 header with
  | some header => .ok (derive key header.bytes)
  | none => .error (.malformedHeader 24 header.length)

/-- A fresh header and the keys for it. -/
def generate {ρ : Type} [Entropy ρ] (key : SessionKey) (source : ρ) :
    Except StreamFault (Header × StreamKeys) × ρ :=
  let (drawn, source) := Entropy.draw source 24
  (match drawn with
    | .ok header => .ok (header, derive key header.bytes)
    | .error reason => .error (.noRandomness reason),
   source)

/-- The wording for programmers, which holds no key material. -/
def describe (_ : StreamKeys) : String :=
  Text.record "StreamKeys" [("subkey", redactedSubkey), ("base_nonce", redactedBaseNonce)]

end StreamKeys

/-- The purpose under which a subkey is replaced. -/
def rotationPurpose : Bytes := Text.utf8 "sealstreamRekeyV1"

/-- **Rotation:** the subkey of the next epoch. -/
def rotateSubkey (subkey : Subkey) (baseNonce : Nonce) : Subkey :=
  hmac subkey.bytes (rotationPurpose ++ baseNonce.bytes)

/-- **The nonce of a chunk:** the base nonce with the counter mixed into its last four bytes. -/
def chunkNonce (baseNonce : Nonce) (counter : UInt32) : Nonce :=
  ⟨baseNonce.bytes.take 20 ++ xorBytes (baseNonce.bytes.drop 20) (beBytes 4 counter.toNat),
   by simp [xorBytes]⟩

end AeadStream
