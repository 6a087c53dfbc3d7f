import AeadStream.Proofs.Pipe.RoundTrip

/-!
# Plaintexts come back under a password

A stream under a password is a preamble of 28 bytes and the stream under the key that is derived
from the password and the preamble. It is decrypted again under the same password, and with an empty
password nothing is written on either side.

* `Locked` — what a password makes of a plaintext;
* `encryptWithPassword_nil`, `decryptWithPassword_nil` — an empty password;
* `password_gives_back` — there and back.
-/

namespace AeadStream.Pipe

open AeadStream.Frame

section

variable {ρ : Type} [Entropy ρ] {random random' : ρ} {salt : Octets 16} {header : Header}
  {costs : Argon2.Costs} {ends : Ends} {plaintext password : Bytes} {chunkSize : Nat}
  {sending : Config}

/-! ## With a password -/

/-- **What a password makes of a plaintext:** the preamble and behind it the bytes that encryption
under the derived key writes, whatever its ends are, with the random numbers behind the salt. From
any healthy source into any healthy sink they are decrypted to the plaintext under the same
password, and both sides give its epilogue. -/
structure Locked (password : Bytes) (preamble : Preamble) (ends : Ends) (random random' : ρ)
    (sending receiving : Config) (chunkSize : Nat) (plaintext written : Bytes) : Prop where
  encrypted : (encryptWithPassword ends password random preamble.costs sending chunkSize).result =
    .ok (Epilogue.ofPlaintext plaintext)
  contents : (encryptWithPassword ends password random preamble.costs sending
    chunkSize).state.sink.contents = ends.sink.contents ++ (preamble.encode ++ written)
  stream : ∀ other : Ends, other.source.Healthy → other.source.rest = plaintext →
    other.sink.Healthy →
    (encrypt other (Argon2.hash preamble.costs password preamble.salt.bytes) random' sending
      chunkSize).state.sink.contents = other.sink.contents ++ written
  decrypted : plaintext.length < UInt64.size → ∀ other : Ends, other.source.Healthy →
    other.source.rest = preamble.encode ++ written → other.sink.Healthy →
    (decryptWithPassword other password receiving).result = .ok (Epilogue.ofPlaintext plaintext) ∧
      (decryptWithPassword other password receiving).state.sink.contents =
        other.sink.contents ++ plaintext

/-- **A plaintext is locked** with every password that is neither empty nor too long, under costs
that are accepted and settings that suit. -/
theorem Suits.locked {receiving : Config} (h : Suits chunkSize sending plaintext)
    (hne : password ≠ []) (hlt : password.length < UInt32.size) (hcheck : costs.check = .ok ())
    (hsalt : Entropy.draw random 16 = (.ok salt, random'))
    (hdraw : (Entropy.draw random' 24).1 = .ok header)
    (hclamp : max 1 (min sending.rekeyInterval.toNat Config.maxRekeyInterval.toNat) =
      max 1 (min receiving.rekeyInterval.toNat Config.maxRekeyInterval.toNat))
    (hlimit : sending.maxChunkLen ≤ receiving.maxChunkLen) (hsource : ends.source.Healthy)
    (hrest : ends.source.rest = plaintext) (hsink : ends.sink.Healthy) :
    ∃ written, Locked password ⟨salt, costs⟩ ends random random' sending receiving chunkSize
      plaintext written := by
  have hkey : (Preamble.mk salt costs).deriveKey password =
      .ok (Argon2.hash costs password salt.bytes) := Preamble.deriveKey_eq_ok hne hlt hcheck
  obtain ⟨sink, hhealthy, hpreamble, hsame⟩ :=
    encryptWithPassword_of_draw hne hlt hcheck hsalt hsink sending chunkSize
  obtain ⟨hresult, hcontents⟩ := h.encrypt hdraw (Argon2.hash costs password salt.bytes)
    { ends with sink } (hsource.delivers hrest) hhealthy
  refine ⟨header.bytes ++ wire (.fresh (Argon2.hash costs password salt.bytes) header sending)
    (allFrames chunkSize plaintext), ?_, ?_, ?_, ?_⟩
  · rw [hsame]
    exact hresult
  · rw [hsame, ← List.append_assoc, ← hpreamble]
    exact hcontents
  · intro other hsource' hrest' hsink'
    exact (h.encrypt hdraw _ other (hsource'.delivers hrest') hsink').2
  · intro hshort other hsource' hrest' hsink'
    obtain ⟨source, hnext, hdecrypt⟩ :=
      decryptWithPassword_of_delivers hcheck hkey (hsource'.delivers hrest') receiving
    obtain ⟨hhealthy', hleft⟩ := hnext.healthy
    rw [hdecrypt]
    exact h.decrypt hclamp hlimit hshort { other with source } hhealthy' hleft hsink'

/-! ## Without one -/

/-- With an empty password nothing is encrypted, and nothing is written. -/
theorem encryptWithPassword_nil (hcheck : costs.check = .ok ())
    (hsalt : Entropy.draw random 16 = (.ok salt, random')) (ends : Ends) (config : Config)
    (chunkSize : Nat) :
    encryptWithPassword ends [] random costs config chunkSize =
      ⟨.error (.password "password is empty"), ends, []⟩ := by
  rw [encryptWithPassword, Preamble.generate_of_draw hcheck hsalt]
  simp only [Preamble.deriveKey_nil]

/-- With an empty password nothing is decrypted, and nothing is written. -/
theorem decryptWithPassword_nil {preamble : Preamble} {back : Bytes} {ending : Option IoFault}
    (hcheck : preamble.costs.check = .ok ())
    (hsource : ends.source.Delivers (preamble.encode ++ back) ending) (config : Config) :
    ∃ source, decryptWithPassword ends [] config =
      ⟨.error (.password "password is empty"), { ends with source }, []⟩ := by
  obtain ⟨source, hread, -⟩ := Preamble.read_of_delivers hcheck hsource
  refine ⟨source, ?_⟩
  rw [decryptWithPassword, hread]
  simp only [Preamble.deriveKey_nil]

/-! ## There and back -/

/-- **A password gives back** what it locked. Under costs that are accepted and settings that suit,
with a salt and a header that are drawn, a plaintext that a healthy source holds is locked with
every password that is neither empty nor too long, behind a preamble of 28 bytes. With an empty
password its encryption fails and writes nothing, and so does the decryption of anything behind a
preamble with costs that are accepted. -/
theorem password_gives_back (hcheck : costs.check = .ok ())
    (hsalt : Entropy.draw random 16 = (.ok salt, random'))
    (hdraw : (Entropy.draw random' 24).1 = .ok header) (hsuits : Suits chunkSize sending plaintext)
    (receiving : Config)
    (hclamp : max 1 (min sending.rekeyInterval.toNat Config.maxRekeyInterval.toNat) =
      max 1 (min receiving.rekeyInterval.toNat Config.maxRekeyInterval.toNat))
    (hlimit : sending.maxChunkLen ≤ receiving.maxChunkLen) (hsource : ends.source.Healthy)
    (hrest : ends.source.rest = plaintext) (hsink : ends.sink.Healthy) :
    (Preamble.mk salt costs).encode.length = 28 ∧
    (∀ password : Bytes, password ≠ [] → password.length < UInt32.size →
      ∃ written, Locked password ⟨salt, costs⟩ ends random random' sending receiving chunkSize
        plaintext written) ∧
    encryptWithPassword ends [] random costs sending chunkSize =
      ⟨.error (.password "password is empty"), ends, []⟩ ∧
    ∀ (other : Ends) (preamble : Preamble) (back : Bytes) (ending : Option IoFault),
      preamble.costs.check = .ok () → other.source.Delivers (preamble.encode ++ back) ending →
      ∃ source, decryptWithPassword other [] receiving =
        ⟨.error (.password "password is empty"), { other with source }, []⟩ := by
  refine ⟨Preamble.length_encode _, ?_, encryptWithPassword_nil hcheck hsalt ends sending chunkSize,
    ?_⟩
  · intro password hne hlt
    exact hsuits.locked hne hlt hcheck hsalt hdraw hclamp hlimit hsource hrest hsink
  · intro other preamble back ending hother hdelivers
    exact decryptWithPassword_nil hother hdelivers receiving

end

/-- Three bytes come back under a password of one byte, and not under an empty one. -/
theorem password_gives_back_three_bytes :
    (Argon2.Costs.mk 8 1 1).check = .ok () ∧
      Entropy.draw (Tape.mk (List.replicate 40 0)) 16 =
        (.ok (.zero 16), Tape.mk (List.replicate 24 0)) ∧
      (Entropy.draw (Tape.mk (List.replicate 24 0)) 24).1 = .ok (Octets.zero 24) ∧
      Suits 2 { rekeyInterval := 1, maxChunkLen := 88 } [1, 2, 3] ∧
      threeBytes.source.Healthy ∧ threeBytes.sink.Healthy ∧
      (∃ written, Locked [112] ⟨.zero 16, ⟨8, 1, 1⟩⟩ threeBytes (Tape.mk (List.replicate 40 0))
        (Tape.mk (List.replicate 24 0)) { rekeyInterval := 1, maxChunkLen := 88 }
        { rekeyInterval := 0 } 2 [1, 2, 3] written) ∧
      encryptWithPassword threeBytes [] (Tape.mk (List.replicate 40 0)) ⟨8, 1, 1⟩
          { rekeyInterval := 1, maxChunkLen := 88 } 2 =
        ⟨.error (.password "password is empty"), threeBytes, []⟩ := by
  have hcheck : (Argon2.Costs.mk 8 1 1).check = .ok () := rfl
  have hsalt : Entropy.draw (Tape.mk (List.replicate 40 0)) 16 =
      (.ok (.zero 16), Tape.mk (List.replicate 24 0)) := rfl
  have hdraw : (Entropy.draw (Tape.mk (List.replicate 24 0)) 24).1 = .ok (Octets.zero 24) := rfl
  have hsuits : Suits 2 { rekeyInterval := 1, maxChunkLen := 88 } [1, 2, 3] :=
    ⟨by decide, by decide, Epilogue.length_encode_ofPlaintext_le _⟩
  have hsource : threeBytes.source.Healthy := ⟨by decide, nofun, rfl⟩
  have hsink : threeBytes.sink.Healthy := ⟨by decide, by decide, rfl, rfl⟩
  obtain ⟨-, hlocked, hempty, -⟩ := password_gives_back hcheck hsalt hdraw hsuits
    { rekeyInterval := 0 } rfl (by decide) hsource rfl hsink
  exact ⟨hcheck, hsalt, hdraw, hsuits, hsource, hsink,
    hlocked [112] (List.cons_ne_nil _ _) (by decide), hempty⟩

end AeadStream.Pipe
