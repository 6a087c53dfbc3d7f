import AeadStream.Command.Run
import AeadStream.Proofs.Pipe.RoundTrip

/-!
# Plaintexts come back under both kinds of secret

A command does the same under a key and under a password, up to the preamble. What holds of both
is said once, for the secret.

* `Secret.encrypt`, `Secret.decrypt` — encryption and decryption under a secret;
* `Secret.comesBack` — a plaintext comes back, if its encryption succeeds;
* `Secret.encrypt_of_fill` — what cannot be read is not encrypted.
-/

namespace AeadStream

open AeadStream.Frame

/-! ## A source that cannot be read -/

namespace Pipe

variable {ρ : Type} [Entropy ρ] {ends : Ends} {chunkSize : Nat} {fault : IoFault} {source : Source}

/-- An encryption fails if its source does at once. -/
theorem encrypt_of_fill (hfill : ends.source.fill (max chunkSize 1) = (.error fault, source))
    (key : SessionKey) (random : ρ) (config : Config) :
    ∃ fault, (encrypt ends key random config chunkSize).result = .error fault := by
  rw [encrypt]
  cases hstart : (Writer.start ends.sink key random config).result with
  | error fault => exact ⟨_, rfl⟩
  | ok w =>
    have hpieces : (writePieces (max chunkSize 1) ends.source w []).result = .error fault := by
      rw [writePieces]
      split
      · next h => rw [hfill] at h; cases h; rfl
      · next h => rw [hfill] at h; cases h
      · next h => rw [hfill] at h; cases h
    simp only [hpieces]
    exact ⟨_, rfl⟩

/-- So does one under a password. -/
theorem encryptWithPassword_of_fill
    (hfill : ends.source.fill (max chunkSize 1) = (.error fault, source)) (password : Bytes)
    (random : ρ) (costs : Argon2.Costs) (config : Config) :
    ∃ fault, (encryptWithPassword ends password random costs config chunkSize).result =
      .error fault := by
  rw [encryptWithPassword]
  split
  · exact ⟨_, rfl⟩
  · split
    · exact ⟨_, rfl⟩
    · split
      · exact ⟨_, rfl⟩
      · next random' _ _ key _ _ sink _ =>
        have hsame : ({ ends with sink } : Ends).source.fill (max chunkSize 1) =
          (.error fault, source) := hfill
        exact encrypt_of_fill hsame key random' config

end Pipe

/-! ## Success under a password -/

namespace Pipe

/-- **An encryption under a password succeeds** with a password and costs that are accepted, if the
salt and the header are drawn and the settings suit what a healthy source holds. -/
theorem encryptWithPassword_succeeds {ρ : Type} [Entropy ρ] {random random' : ρ} {ends : Ends}
    {password plaintext : Bytes} {costs : Argon2.Costs} {config : Config} {chunkSize : Nat}
    {salt : Octets 16} {header : Header} (hne : password ≠ [])
    (hlt : password.length < UInt32.size) (hcheck : costs.check = .ok ())
    (hsalt : Entropy.draw random 16 = (.ok salt, random'))
    (hdraw : (Entropy.draw random' 24).1 = .ok header) (hsuits : Suits chunkSize config plaintext)
    (hsource : ends.source.Delivers plaintext none) (hsink : ends.sink.Healthy) :
    (encryptWithPassword ends password random costs config chunkSize).result =
      .ok (Epilogue.ofPlaintext plaintext) := by
  obtain ⟨sink, hhealthy, -, hencrypt⟩ :=
    encryptWithPassword_of_draw hne hlt hcheck hsalt hsink config chunkSize
  obtain ⟨hresult, -⟩ := hsuits.encrypt hdraw (Argon2.hash costs password salt.bytes)
    { ends with sink } hsource hhealthy
  rw [hencrypt, Outcome.result_after]
  exact hresult

end Pipe

/-! ## Both kinds of secret -/

namespace Command.Secret

variable {ρ : Type} [Entropy ρ] {random : ρ} {ends : Ends} {costs : Argon2.Costs}
  {secret : Secret} {plaintext written : Bytes} {text : String} {chunkSize : Nat}
  {rekeyInterval : UInt32} {epilogue : Epilogue}

/-- Encryption under a secret. -/
def encrypt (secret : Secret) (ends : Ends) (random : ρ) (costs : Argon2.Costs) (config : Config)
    (chunkSize : Nat) : Outcome CommandFault Ends Epilogue :=
  match secret with
  | .key k => Pipe.encrypt ends k random config chunkSize
  | .password p => Pipe.encryptWithPassword ends p random costs config chunkSize

/-- Decryption under a secret. -/
def decrypt (secret : Secret) (ends : Ends) (config : Config) :
    Outcome CommandFault Ends Epilogue :=
  match secret with
  | .key k => Pipe.decrypt ends k config
  | .password p => Pipe.decryptWithPassword ends p config

/-- What cannot be read is not encrypted. -/
theorem encrypt_of_fill {fault : IoFault} {source : Source}
    (hfill : ends.source.fill (max chunkSize 1) = (.error fault, source)) (secret : Secret)
    (random : ρ) (costs : Argon2.Costs) (config : Config) :
    ∃ fault, (secret.encrypt ends random costs config chunkSize).result = .error fault := by
  cases secret with
  | key k => exact Pipe.encrypt_of_fill hfill k random config
  | password p => exact Pipe.encryptWithPassword_of_fill hfill p random costs config

/-- A directory is not encrypted. -/
theorem encrypt_of_directory (secret : Secret) (random : ρ) (costs : Argon2.Costs)
    (config : Config) (chunkSize : Nat) :
    ∃ fault, (secret.encrypt ⟨FileSystem.unreadable, {}⟩ random costs config chunkSize).result =
      .error fault := by
  have hdelivers : FileSystem.unreadable.Delivers [] (some (.file .isADirectory)) :=
    ⟨List.not_mem_nil, nofun, .failed rfl rfl⟩
  have hlt : ([] : Bytes).length < max chunkSize 1 :=
    Nat.pos_of_ne_zero (Pipe.max_one_ne_zero chunkSize)
  obtain ⟨source, hfill⟩ := hdelivers.fill_short hlt
  have hends : (Ends.mk FileSystem.unreadable {}).source.fill (max chunkSize 1) =
    (.error (.file .isADirectory), source) := hfill
  exact encrypt_of_fill hends secret random costs config

/-- The settings of a sender with a chunk size of its own. -/
def sending (rekeyInterval : UInt32) (chunkSize : Nat) : Config :=
  { rekeyInterval, maxChunkLen := UInt64.ofNat chunkSize }

/-- **Written bytes open as a plaintext** under a secret, from any healthy source into any healthy
sink, if the receiver takes chunks of up to the greatest size. -/
def Opens (secret : Secret) (rekeyInterval : UInt32) (written plaintext : Bytes) : Prop :=
  ∀ other : Ends, other.source.Healthy → other.source.rest = written → other.sink.Healthy →
    (secret.decrypt other (sending rekeyInterval ChunkSize.greatest)).result =
        .ok (Epilogue.ofPlaintext plaintext) ∧
      (secret.decrypt other (sending rekeyInterval ChunkSize.greatest)).state.sink.contents =
        other.sink.contents ++ plaintext

/-- What is encrypted under a key opens as its plaintext. -/
theorem opens_of_encrypt {k : SessionKey}
    (h : (Pipe.encrypt ends k random (sending rekeyInterval chunkSize) chunkSize).result =
      .ok epilogue)
    (hparse : ChunkSize.parse text = .ok chunkSize) (hlt : plaintext.length < UInt64.size)
    (hsource : ends.source.Healthy) (hrest : ends.source.rest = plaintext)
    (hsink : ends.sink.Healthy) :
    ∃ written, (Pipe.encrypt ends k random (sending rekeyInterval chunkSize)
        chunkSize).state.sink.contents = ends.sink.contents ++ written ∧
      Opens (.key k) rekeyInterval written plaintext := by
  obtain ⟨header, -, hdraw, -⟩ := Pipe.sent_of_encrypt h
  obtain ⟨hsuits, hlimit⟩ := Pipe.suits_of_parse hparse rekeyInterval plaintext
  have hback : Pipe.ComesBack ends k random (sending rekeyInterval chunkSize)
      (sending rekeyInterval ChunkSize.greatest) chunkSize plaintext :=
    hsuits.comesBack hdraw k rfl hlimit hlt hsource hrest hsink
  obtain ⟨written, -, hwritten, hback⟩ := hback
  exact ⟨written, hwritten, hback⟩

/-- What opens under the key of a preamble opens under the password, behind the preamble. -/
theorem Opens.behind_preamble {p : Bytes} {k : SessionKey} {preamble : Preamble}
    (h : Opens (.key k) rekeyInterval written plaintext)
    (hcheck : preamble.costs.check = .ok ()) (hkey : preamble.deriveKey p = .ok k) :
    Opens (.password p) rekeyInterval (preamble.encode ++ written) plaintext := by
  intro other hsource hrest hsink
  obtain ⟨source, hnext, hdecrypt⟩ := Pipe.decryptWithPassword_of_delivers hcheck hkey
    (hsource.delivers hrest) (sending rekeyInterval ChunkSize.greatest)
  obtain ⟨hhealthy, hleft⟩ := hnext.healthy
  rw [decrypt, hdecrypt]
  exact h { other with source } hhealthy hleft hsink

/-- **A plaintext comes back** under a secret, if its encryption succeeds. -/
theorem comesBack
    (h : (secret.encrypt ends random costs (sending rekeyInterval chunkSize) chunkSize).result =
      .ok epilogue)
    (hparse : ChunkSize.parse text = .ok chunkSize) (hlt : plaintext.length < UInt64.size)
    (hsource : ends.source.Healthy) (hrest : ends.source.rest = plaintext)
    (hsink : ends.sink.Healthy) :
    ∃ written, (secret.encrypt ends random costs (sending rekeyInterval chunkSize)
        chunkSize).state.sink.contents = ends.sink.contents ++ written ∧
      Opens secret rekeyInterval written plaintext := by
  cases secret with
  | key k => exact opens_of_encrypt h hparse hlt hsource hrest hsink
  | password p =>
    rw [encrypt, Pipe.encryptWithPassword] at h ⊢
    split at h
    · cases h
    · next preamble random' hgenerate =>
      split at h
      · cases h
      · next k hkey =>
        obtain ⟨sink, hwrite, hhealthy, hcontents⟩ := hsink.writeAll preamble.encode
        simp only [hwrite] at h ⊢
        rw [Outcome.result_after] at h
        obtain ⟨written, hwritten, hopens⟩ := opens_of_encrypt h hparse hlt hsource hrest hhealthy
        refine ⟨preamble.encode ++ written, ?_,
          hopens.behind_preamble (Preamble.check_of_generate hgenerate) hkey⟩
        rw [Outcome.state_after, hwritten, hcontents, List.append_assoc]

end Command.Secret

end AeadStream
