import AeadStream.Sha256

/-!
# HMAC and HKDF over SHA-256

The keyed hash and the key derivation on top of it. The output of
the derivation is given block by block, so each block's length is known from its type.
-/

namespace AeadStream

/-- **HMAC-SHA-256.** A key of more than one 64-byte block is hashed first. -/
def hmac (key message : Bytes) : Octets 32 :=
  let short := if 64 < key.length then (Sha256.digest key).bytes else key
  let block := (Octets.padded 64 short).bytes
  let inner := Sha256.digest (block.map (· ^^^ 0x36) ++ message)
  Sha256.digest (block.map (· ^^^ 0x5c) ++ inner.bytes)

namespace Hkdf

/-- The pseudorandom key drawn from the input key material. -/
def extract (salt material : Bytes) : Octets 32 := hmac salt material

/-- Block `i` of the output, counted from zero: each is the keyed hash of its predecessor, the
purpose and its number. -/
def expand (key : Octets 32) (purpose : Bytes) : Nat → Octets 32
  | 0 => hmac key.bytes (purpose ++ [1])
  | i + 1 => hmac key.bytes ((expand key purpose i).bytes ++ purpose ++ [UInt8.ofNat (i + 2)])

end Hkdf

end AeadStream
