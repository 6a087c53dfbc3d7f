import AeadStream.Text.Quoted

/-!
# Faults of the primitives

Why a key, a draw of random bytes or a sealed chunk was refused.
-/

namespace AeadStream

/-- **Why a primitive refused.** -/
inductive CipherFault
  /-- the tag does not fit the key, the nonce, the associated data and the ciphertext -/
  | authentication
  /-- a sealed chunk is shorter than its own overhead -/
  | tooShort (minimum actual : Nat)
  /-- a key has the wrong number of bytes -/
  | keyLength (expected actual : Nat)
  /-- the source of random bytes failed -/
  | noRandomness (reason : String)
deriving DecidableEq

namespace CipherFault

/-- The name of the kind of fault. -/
def name : CipherFault → String
  | authentication => "AuthenticationFailed"
  | tooShort .. => "ChunkTooShort"
  | keyLength .. => "InvalidKeyLength"
  | noRandomness .. => "RandomUnavailable"

/-- The wording for users. -/
def message : CipherFault → String
  | authentication => "authentication failed"
  | tooShort minimum actual => s!"chunk too short: expected at least {minimum} bytes, got {actual}"
  | keyLength expected actual => s!"invalid key length: expected {expected}, got {actual}"
  | noRandomness reason => s!"secure random source unavailable: {reason}"

/-- The wording for programmers. -/
def describe (fault : CipherFault) : String :=
  match fault with
  | authentication => fault.name
  | tooShort minimum actual =>
    Text.record fault.name [("minimum", toString minimum), ("actual", toString actual)]
  | keyLength expected actual =>
    Text.record fault.name [("expected", toString expected), ("actual", toString actual)]
  | noRandomness reason => Text.record fault.name [("reason", Text.quoted reason)]

/-- Trying again is pointless. Only a failed authentication may be followed by another
attempt, with other bytes. -/
def isFatal : CipherFault → Bool
  | authentication => false
  | _ => true

end CipherFault

end AeadStream
