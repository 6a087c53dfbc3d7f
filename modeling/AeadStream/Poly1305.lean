import AeadStream.Bytes

/-!
# Poly1305

The one-time authenticator: the message is read as the coefficients of a
polynomial, evaluated at a secret point modulo a prime, and masked with a second secret.
-/

namespace AeadStream.Poly1305

/-- The prime modulus. -/
def prime : Nat := 0x3fffffffffffffffffffffffffffffffb

/-- The point of evaluation: the first half of the key with 22 of its bits cleared. -/
def point (key : Octets 32) : Nat :=
  natOfLe (key.bytes.take 16) &&& 0x0ffffffc0ffffffc0ffffffc0fffffff

/-- The mask: the second half of the key. -/
def mask (key : Octets 32) : Nat := natOfLe (key.bytes.drop 16)

/-- One step of the evaluation. A coefficient is up to sixteen bytes with a one byte after
them, so that trailing zeros count. -/
def step (r acc : Nat) (piece : Bytes) : Nat := (acc + natOfLe (piece ++ [1])) * r % prime

/-- **The tag** of a message under a one-time key. -/
def tag (key : Octets 32) (message : Bytes) : Octets 16 :=
  ⟨leBytes 16 ((pieces 16 message).foldl (step (point key)) 0 + mask key), length_leBytes _ _⟩

end AeadStream.Poly1305
