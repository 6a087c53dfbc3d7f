import AeadStream.Aead
import AeadStream.KeySchedule

/-!
# Chunks

A chunk is sealed as one message of the cipher: a tag byte in front of the plaintext, both
encrypted, and sixteen bytes of authentication behind. So a sealed chunk is seventeen bytes
longer than its plaintext, and its tag byte is as secret and as authentic as its content.
-/

namespace AeadStream

/-! ## Tags -/

/-- **The tag** of a chunk: what it does to the stream. -/
inductive Tag
  /-- an ordinary chunk -/
  | message
  /-- the end of a group of chunks -/
  | push
  /-- the last chunk under this subkey -/
  | rekey
  /-- the last chunk of the stream -/
  | final
deriving DecidableEq

namespace Tag

/-- The byte for a tag. -/
def toByte : Tag → UInt8
  | message => 0
  | push => 1
  | rekey => 2
  | final => 3

/-- The tag for a byte. -/
def ofByte? (b : UInt8) : Option Tag :=
  if b = 0 then some message
  else if b = 1 then some push
  else if b = 2 then some rekey
  else if b = 3 then some final
  else none

theorem ofByte?_toByte (t : Tag) : ofByte? t.toByte = some t := by
  cases t <;> rfl

/-- The tag for a byte from outside, or the fault that no tag has this number. -/
def ofByte (b : UInt8) : Except StreamFault Tag :=
  match ofByte? b with
  | some tag => .ok tag
  | none => .error (.unknownTag b)

end Tag

/-! ## Sealing -/

/-- By how many bytes a sealed chunk is longer than its plaintext. -/
def chunkOverhead : Nat := 17

/-- **Sealing** a plaintext with its tag byte. -/
def sealChunk (subkey : Subkey) (nonce : Nonce) (tag : UInt8) (plaintext aad : Bytes) : Bytes :=
  Aead.encrypt subkey nonce (tag :: plaintext) aad

/-- **Opening.** The tag byte and the plaintext of a sealed chunk. -/
def openChunk (subkey : Subkey) (nonce : Nonce) (sealed aad : Bytes) :
    Except CipherFault (UInt8 × Bytes) :=
  if sealed.length < chunkOverhead then
    .error (.tooShort chunkOverhead sealed.length)
  else
    match Aead.decrypt? subkey nonce sealed aad with
    | some (tag :: plaintext) => .ok (tag, plaintext)
    | some [] | none => .error .authentication

/-- A chunk that was opened is seventeen bytes shorter than it was sealed. -/
theorem length_of_openChunk {subkey : Subkey} {nonce : Nonce} {sealed aad plaintext : Bytes}
    {tag : UInt8} (h : openChunk subkey nonce sealed aad = .ok (tag, plaintext)) :
    plaintext.length + chunkOverhead = sealed.length := by
  unfold openChunk at h
  split at h
  · exact absurd h nofun
  · split at h
    · rename_i hd
      have hlen := Aead.length_of_decrypt? hd
      obtain ⟨-, rfl⟩ := Prod.mk.inj (Except.ok.inj h)
      simp only [List.length_cons, chunkOverhead] at hlen ⊢
      omega
    · exact absurd h nofun
    · exact absurd h nofun

/-- The number of plaintext bytes in a sealed chunk of the given length. -/
def plaintextLength (sealedLength : Nat) : Nat := sealedLength - chunkOverhead

end AeadStream
