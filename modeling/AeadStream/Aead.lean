import AeadStream.ChaCha20
import AeadStream.Poly1305

/-!
# XChaCha20-Poly1305

Authenticated encryption with a 24-byte nonce. The first sixteen bytes of the nonce go into
the key hash, the last eight into the cipher; block zero of the keystream is the one-time key
of the authenticator and the message starts with block one.
-/

namespace AeadStream.Aead

/-- The cipher key and the cipher nonce for a key and a long nonce. -/
def split (key : Octets 32) (nonce : Octets 24) : Octets 32 × Octets 12 :=
  (ChaCha20.hashKey key (nonce.take 16 (by omega)),
   ⟨[0, 0, 0, 0] ++ nonce.bytes.drop 16, by simp⟩)

/-- Zeros up to a multiple of sixteen bytes. -/
def padding (length : Nat) : Bytes := List.replicate ((16 - length % 16) % 16) 0

/-- What is authenticated: both texts, each filled up with zeros, and their lengths. -/
def authenticated (aad ciphertext : Bytes) : Bytes :=
  aad ++ padding aad.length ++ (ciphertext ++ padding ciphertext.length) ++
    (leBytes 8 aad.length ++ leBytes 8 ciphertext.length)

/-- The tag over the associated data and the ciphertext. -/
def tag (key : Octets 32) (nonce : Octets 24) (aad ciphertext : Bytes) : Octets 16 :=
  let (cipherKey, cipherNonce) := split key nonce
  let oneTimeKey := (ChaCha20.block cipherKey cipherNonce 0).take 32 (by omega)
  Poly1305.tag oneTimeKey (authenticated aad ciphertext)

/-- Encrypts or decrypts, without authentication. -/
def cipher (key : Octets 32) (nonce : Octets 24) (text : Bytes) : Bytes :=
  let (cipherKey, cipherNonce) := split key nonce
  ChaCha20.applyKeystream cipherKey cipherNonce 1 text

/-- **Sealing.** The ciphertext followed by its tag. -/
def encrypt (key : Octets 32) (nonce : Octets 24) (plaintext aad : Bytes) : Bytes :=
  let ciphertext := cipher key nonce plaintext
  ciphertext ++ (tag key nonce aad ciphertext).bytes

/-- **Opening.** The plaintext, unless the last sixteen bytes are not the tag of the bytes
before them. -/
def decrypt? (key : Octets 32) (nonce : Octets 24) (sealed aad : Bytes) : Option Bytes :=
  let ciphertext := sealed.take (sealed.length - 16)
  if sealed.drop (sealed.length - 16) = (tag key nonce aad ciphertext).bytes then
    some (cipher key nonce ciphertext)
  else
    none

@[simp] theorem length_cipher (key : Octets 32) (nonce : Octets 24) (text : Bytes) :
    (cipher key nonce text).length = text.length := by
  simp [cipher]

/-- A text that was opened is sixteen bytes shorter than it was sealed. -/
theorem length_of_decrypt? {key : Octets 32} {nonce : Octets 24} {sealed aad text : Bytes}
    (h : decrypt? key nonce sealed aad = some text) : text.length + 16 = sealed.length := by
  unfold decrypt? at h
  dsimp only at h
  split at h
  · rename_i ht
    obtain rfl := Option.some.inj h
    have hlen := congrArg List.length ht
    simp only [List.length_drop, Octets.length_bytes] at hlen
    simp only [length_cipher, List.length_take]
    omega
  · exact absurd h nofun

end AeadStream.Aead
