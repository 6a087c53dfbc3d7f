import AeadStream.Chunk

/-!
# Opening is the inverse of sealing

The tag in the last sixteen bytes is a function of everything before it, and the keystream is
its own inverse. So for each key, nonce and associated data the byte strings that open are
exactly those that sealing gives, and each opens to the one text that was sealed. This is a fact
about the construction; no assumption about the strength of the cipher is made.

* `Aead.decrypt?_eq_some_iff` — a text is opened if and only if it was sealed;
* `openChunk_eq_ok_iff` — the same for a chunk with its tag byte;
* `openChunk_append_of_ne` — of all strings that differ in the last sixteen bytes only, at most
  one opens;
* `opening_inverts_sealing` — what comes of any bytes, with the faults.
-/

namespace AeadStream

namespace Aead

variable {key : Octets 32} {nonce : Octets 24} {sealed aad text : Bytes}

@[simp] theorem cipher_cipher (key : Octets 32) (nonce : Octets 24) (text : Bytes) :
    cipher key nonce (cipher key nonce text) = text :=
  ChaCha20.applyKeystream_applyKeystream _ _ _ _

@[simp] theorem length_encrypt (key : Octets 32) (nonce : Octets 24) (text aad : Bytes) :
    (encrypt key nonce text aad).length = text.length + 16 := by
  simp [encrypt]

/-- What is opened of a text with sixteen bytes behind it. -/
theorem decrypt?_append {mac : Bytes} (hmac : mac.length = 16) :
    decrypt? key nonce (text ++ mac) aad =
      if mac = (tag key nonce aad text).bytes then some (cipher key nonce text) else none := by
  have hlen : (text ++ mac).length - 16 = text.length := by
    rw [List.length_append, hmac]
    omega
  rw [decrypt?, hlen, List.drop_left, List.take_left]

/-- What was sealed opens. -/
theorem decrypt?_encrypt (key : Octets 32) (nonce : Octets 24) (text aad : Bytes) :
    decrypt? key nonce (encrypt key nonce text aad) aad = some text := by
  rw [encrypt, decrypt?_append (Octets.length_bytes _), if_pos rfl, cipher_cipher]

/-- What opens was sealed. -/
theorem eq_encrypt_of_decrypt? (h : decrypt? key nonce sealed aad = some text) :
    sealed = encrypt key nonce text aad := by
  have hlen := length_of_decrypt? h
  have hsplit := List.take_append_drop (sealed.length - 16) sealed
  have hmac : (sealed.drop (sealed.length - 16)).length = 16 := by
    rw [List.length_drop]
    omega
  rw [← hsplit, decrypt?_append hmac] at h
  by_cases ht : sealed.drop (sealed.length - 16) =
      (tag key nonce aad (sealed.take (sealed.length - 16))).bytes
  · rw [if_pos ht] at h
    obtain rfl := Option.some.inj h
    rw [encrypt, cipher_cipher, ← ht, hsplit]
  · rw [if_neg ht] at h
    cases h

/-- **Opening is the exact inverse of sealing.** -/
theorem decrypt?_eq_some_iff :
    decrypt? key nonce sealed aad = some text ↔ sealed = encrypt key nonce text aad := by
  constructor
  · exact eq_encrypt_of_decrypt?
  · rintro rfl
    exact decrypt?_encrypt key nonce text aad

end Aead

/-! ## Tags -/

/-- A byte stands for a tag if and only if it is the byte of that tag. -/
theorem Tag.ofByte?_eq_some_iff {b : UInt8} {t : Tag} : ofByte? b = some t ↔ b = t.toByte := by
  constructor
  · intro h
    rw [ofByte?] at h
    -- in each branch the byte was compared with that of the tag
    repeat' split at h
    all_goals cases h
    all_goals assumption
  · rintro rfl
    exact ofByte?_toByte t

/-! ## Chunks -/

section

variable {subkey : Subkey} {nonce : Nonce} {sealed aad plaintext : Bytes} {tag : UInt8}

@[simp] theorem length_sealChunk (subkey : Subkey) (nonce : Nonce) (tag : UInt8)
    (plaintext aad : Bytes) :
    (sealChunk subkey nonce tag plaintext aad).length = plaintext.length + chunkOverhead := by
  simp [sealChunk, chunkOverhead]

/-- Bytes that are long enough for a chunk open as the text that the cipher gives. -/
theorem openChunk_of_le (h : chunkOverhead ≤ sealed.length) :
    openChunk subkey nonce sealed aad =
      match Aead.decrypt? subkey nonce sealed aad with
      | some (tag :: plaintext) => .ok (tag, plaintext)
      | some [] | none => .error .authentication := by
  unfold openChunk
  exact if_neg (Nat.not_lt.mpr h)

/-- **Exactly the sealed chunks open,** each to its own tag byte and plaintext. -/
theorem openChunk_eq_ok_iff :
    openChunk subkey nonce sealed aad = .ok (tag, plaintext) ↔
      sealed = sealChunk subkey nonce tag plaintext aad := by
  constructor
  · intro h
    have hlen := length_of_openChunk h
    rw [openChunk_of_le (by omega)] at h
    split at h
    · next hd =>
      obtain ⟨rfl, rfl⟩ := Prod.mk.inj (Except.ok.inj h)
      exact Aead.eq_encrypt_of_decrypt? hd
    · cases h
    · cases h
  · rintro rfl
    rw [openChunk_of_le (by rw [length_sealChunk]; omega), sealChunk, Aead.decrypt?_encrypt]

/-- A chunk that does not open is too short or not authentic. -/
theorem openChunk_eq_error {fault : CipherFault}
    (h : openChunk subkey nonce sealed aad = .error fault) :
    (sealed.length < chunkOverhead ∧ fault = .tooShort chunkOverhead sealed.length) ∨
      (chunkOverhead ≤ sealed.length ∧ fault = .authentication) := by
  by_cases hlen : sealed.length < chunkOverhead
  · rw [openChunk, if_pos hlen] at h
    exact .inl ⟨hlen, (Except.error.inj h).symm⟩
  · rw [openChunk_of_le (Nat.not_lt.mp hlen)] at h
    split at h
    · cases h
    · exact .inr ⟨Nat.not_lt.mp hlen, (Except.error.inj h).symm⟩
    · exact .inr ⟨Nat.not_lt.mp hlen, (Except.error.inj h).symm⟩

/-- **One tag for each ciphertext.** If a chunk opens, then no chunk opens that differs from it
in the last sixteen bytes only. -/
theorem openChunk_append_of_ne {front mac mac' : Bytes} (hmac : mac.length = 16)
    (hmac' : mac'.length = 16) (hne : mac' ≠ mac)
    (h : openChunk subkey nonce (front ++ mac) aad = .ok (tag, plaintext)) :
    openChunk subkey nonce (front ++ mac') aad = .error .authentication := by
  have hlen := length_of_openChunk h
  have htag : mac = (Aead.tag subkey nonce aad front).bytes := by
    have hd := Aead.decrypt?_eq_some_iff.mpr (openChunk_eq_ok_iff.mp h)
    rw [Aead.decrypt?_append hmac] at hd
    by_cases ht : mac = (Aead.tag subkey nonce aad front).bytes
    · exact ht
    · rw [if_neg ht] at hd
      cases hd
  have hd' : Aead.decrypt? subkey nonce (front ++ mac') aad = none := by
    rw [Aead.decrypt?_append hmac', if_neg]
    rintro rfl
    exact hne htag.symm
  rw [openChunk_of_le, hd']
  simp only [List.length_append] at hlen ⊢
  omega

/-- What is long enough for a chunk has a byte for the tag, if it opens. -/
theorem ne_nil_of_decrypt? {text : Bytes} (hle : chunkOverhead ≤ sealed.length)
    (h : Aead.decrypt? subkey nonce sealed aad = some text) : text ≠ [] := by
  rintro rfl
  have hlen := Aead.length_of_decrypt? h
  simp only [List.length_nil, chunkOverhead] at hlen hle
  omega

/-- Bytes are too short for a chunk exactly if they are shorter than the overhead. -/
theorem openChunk_eq_tooShort_iff :
    openChunk subkey nonce sealed aad = .error (.tooShort chunkOverhead sealed.length) ↔
      sealed.length < chunkOverhead := by
  constructor
  · intro h
    rcases openChunk_eq_error h with ⟨hlt, -⟩ | ⟨-, hfault⟩
    · exact hlt
    · cases hfault
  · intro hlt
    rw [openChunk, if_pos hlt]

/-- Bytes are not authentic exactly if they are long enough for a chunk and were not sealed. -/
theorem openChunk_eq_authentication_iff :
    openChunk subkey nonce sealed aad = .error .authentication ↔
      chunkOverhead ≤ sealed.length ∧
        ∀ tag plaintext, sealed ≠ sealChunk subkey nonce tag plaintext aad := by
  constructor
  · intro h
    refine ⟨?_, fun tag plaintext hsealed => ?_⟩
    · rcases openChunk_eq_error h with ⟨-, hfault⟩ | ⟨hle, -⟩
      · cases hfault
      · exact hle
    · rw [openChunk_eq_ok_iff.mpr hsealed] at h
      cases h
  · rintro ⟨hle, hne⟩
    cases h : openChunk subkey nonce sealed aad with
    | ok opened => exact absurd (openChunk_eq_ok_iff.mp h) (hne opened.1 opened.2)
    | error fault =>
      rcases openChunk_eq_error h with ⟨hlt, -⟩ | ⟨-, rfl⟩
      · exact absurd hle (Nat.not_le.mpr hlt)
      · rfl

end

/-- **Opening is the exact inverse of sealing,** for each subkey, nonce and associated data. Bytes
open to a tag byte and a plaintext, whatever these are, if and only if they are what sealing makes
of them, and then they are seventeen bytes longer than the plaintext. All other bytes are refused:
as too short if there are less than seventeen of them, and as not authentic in every other case.
What opens always has a byte for the tag. -/
theorem opening_inverts_sealing (subkey : Subkey) (nonce : Nonce) (sealed aad : Bytes) :
    (∀ tag plaintext, openChunk subkey nonce sealed aad = .ok (tag, plaintext) ↔
      sealed = sealChunk subkey nonce tag plaintext aad) ∧
    (∀ tag plaintext, openChunk subkey nonce sealed aad = .ok (tag, plaintext) →
      sealed.length = plaintext.length + 17) ∧
    (∀ fault, openChunk subkey nonce sealed aad = .error fault →
      fault = .tooShort 17 sealed.length ∨ fault = .authentication) ∧
    (openChunk subkey nonce sealed aad = .error (.tooShort 17 sealed.length) ↔
      sealed.length < 17) ∧
    (openChunk subkey nonce sealed aad = .error .authentication ↔
      17 ≤ sealed.length ∧
        ∀ tag plaintext, sealed ≠ sealChunk subkey nonce tag plaintext aad) ∧
    (17 ≤ sealed.length → Aead.decrypt? subkey nonce sealed aad ≠ some []) := by
  refine ⟨fun tag plaintext => openChunk_eq_ok_iff, fun tag plaintext h => ?_, fun fault h => ?_,
    openChunk_eq_tooShort_iff, openChunk_eq_authentication_iff,
    fun hle h => ne_nil_of_decrypt? hle h rfl⟩
  · exact (length_of_openChunk h).symm
  · rcases openChunk_eq_error h with ⟨-, hfault⟩ | ⟨-, hfault⟩
    · exact .inl hfault
    · exact .inr hfault

end AeadStream
