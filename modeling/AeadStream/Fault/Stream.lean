import AeadStream.Fault.Cipher
import AeadStream.Hex

/-!
# Faults of the stream

Why a stream refused a header, a chunk or a call. Lengths are checked before any
cryptography, so a malformed chunk never reaches the cipher.
-/

namespace AeadStream

/-- **The phase** of a stream. -/
inductive Phase
  /-- chunks may be sent or received -/
  | streaming
  /-- the final chunk went through and the keys are gone -/
  | finalized
deriving DecidableEq

/-- The name of the phase. -/
def Phase.name : Phase → String
  | streaming => "Streaming"
  | finalized => "Finalized"

/-- **Why a stream refused.** -/
inductive StreamFault
  /-- the header has the wrong number of bytes -/
  | malformedHeader (expected actual : Nat)
  /-- the number of bytes of a sealed chunk is out of range -/
  | malformedChunk (length : Nat)
  /-- the chunk is not the next one of this stream -/
  | authentication
  /-- the operation is not possible in this phase -/
  | wrongPhase (phase : Phase) (operation : String)
  /-- no tag has this number -/
  | unknownTag (raw : UInt8)
  /-- the plaintext is longer than a chunk may be -/
  | tooLong (length limit : Nat)
  /-- the session key has the wrong number of bytes -/
  | keyLength (expected actual : Nat)
  /-- no random header could be drawn -/
  | noRandomness (reason : String)
deriving DecidableEq

namespace StreamFault

/-- A fault of a primitive, as the stream reports it. -/
def ofCipher : CipherFault → StreamFault
  | .authentication => authentication
  | .tooShort _ actual => malformedChunk actual
  | .keyLength expected actual => keyLength expected actual
  | .noRandomness reason => noRandomness reason

/-- The name of the kind of fault. -/
def name : StreamFault → String
  | malformedHeader .. => "MalformedHeader"
  | malformedChunk .. => "MalformedChunk"
  | authentication => "AuthenticationFailed"
  | wrongPhase .. => "InvalidPhase"
  | unknownTag .. => "InvalidTag"
  | tooLong .. => "MessageTooLong"
  | keyLength .. => "InvalidKeyLength"
  | noRandomness .. => "SecureRandomUnavailable"

/-- The wording for users. -/
def message : StreamFault → String
  | malformedHeader expected actual => s!"malformed header: expected {expected} bytes, got {actual}"
  | malformedChunk length => s!"malformed chunk: {length} bytes is outside the accepted range"
  | authentication => "chunk authentication failed"
  | wrongPhase phase operation => s!"invalid phase: cannot {operation} in {phase.name}"
  | unknownTag raw => "invalid tag: 0x" ++ Hex.encode [raw]
  | tooLong length limit => s!"message too long: {length} bytes exceeds maximum {limit}"
  | keyLength expected actual => s!"invalid key length: expected {expected}, got {actual}"
  | noRandomness reason => s!"secure random source unavailable: {reason}"

/-- The wording for programmers. -/
def describe (fault : StreamFault) : String :=
  match fault with
  | malformedHeader expected actual | keyLength expected actual =>
    Text.record fault.name [("expected", toString expected), ("actual", toString actual)]
  | malformedChunk length => Text.record fault.name [("length", toString length)]
  | authentication => fault.name
  | wrongPhase phase operation =>
    Text.record fault.name [("phase", phase.name), ("operation", Text.quoted operation)]
  | unknownTag raw => Text.application fault.name [toString raw.toNat]
  | tooLong length limit =>
    Text.record fault.name [("len", toString length), ("max", toString limit)]
  | noRandomness reason => Text.record fault.name [("reason", Text.quoted reason)]

/-- Trying again is pointless. Only a failed authentication may be followed by another
attempt: it leaves the stream where it was. -/
def isFatal : StreamFault → Bool
  | authentication => false
  | _ => true

end StreamFault

end AeadStream
