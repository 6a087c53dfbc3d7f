import AeadStream.ChunkSize
import AeadStream.Proofs.Frame.RoundTrip
import AeadStream.Proofs.Pipe.Decryption
import AeadStream.Proofs.Pipe.Encryption

/-!
# Plaintexts come back

A plaintext that is encrypted under suitable settings is decrypted again, whatever its length,
however the bytes are cut on the way into and out of both, and with the same epilogue on both
sides. Every chunk size that may be chosen is suitable.

* `Suits` — what the settings of the sender have to be;
* `suits_of_parse` — a chosen chunk size suits every plaintext;
* `plaintext_comes_back` — there and back.
-/

namespace AeadStream

/-- A chosen size is within the bounds. -/
theorem ChunkSize.bounds_of_parse {text : String} {size : Nat} (h : parse text = .ok size) :
    least ≤ size ∧ size ≤ greatest := by
  rw [parse] at h
  split at h
  · cases h
  · split at h
    · cases h
    · next hbounds =>
      obtain rfl := Except.ok.inj h
      omega

/-- Up to the greatest size, 64 bits hold it. -/
theorem ChunkSize.toNat_of_le {size : Nat} (h : size ≤ greatest) :
    (UInt64.ofNat size).toNat = size :=
  UInt64.toNat_ofNat_of_lt' (Nat.lt_of_le_of_lt h (by decide))

namespace Pipe

open AeadStream.Frame

variable {plaintext : Bytes} {chunkSize : Nat} {config : Config}

/-! ## Suitable settings -/

/-- **Settings that suit** a plaintext: the limit on chunks leaves room for its pieces, for its
epilogue, and for the overhead in the four bytes of a length. -/
structure Suits (chunkSize : Nat) (config : Config) (plaintext : Bytes) : Prop where
  le_greatest : max chunkSize 1 ≤ UInt32.size - 1 - chunkOverhead
  le_limit : max chunkSize 1 ≤ config.maxChunkLen.toNat
  epilogue : (Epilogue.ofPlaintext plaintext).encode.length ≤ config.maxChunkLen.toNat

/-- Settings that suit have room for a byte. -/
theorem Suits.maxChunkLen_ne_zero (h : Suits chunkSize config plaintext) :
    config.maxChunkLen ≠ 0 := by
  intro h0
  have hle := h.le_limit
  rw [h0] at hle
  have hzero : (0 : UInt64).toNat = 0 := rfl
  omega

/-- All frames of the plaintext fit. -/
theorem Suits.allFit (h : Suits chunkSize config plaintext) (key : SessionKey) (header : Header) :
    AllFit (.fresh key header config) (allFrames chunkSize plaintext) := by
  have hgreatest := h.le_greatest
  have hlimit : (Stream.fresh key header config).maxChunkLen = config.maxChunkLen := rfl
  simp only [UInt32.size, chunkOverhead] at hgreatest
  refine allFit_whole rfl (fun _ => ne_final_of_mem_dataFrames) ?_ ⟨?_, ?_⟩
  · intro f hf
    have hle := length_le_of_mem_dataFrames (max_one_ne_zero chunkSize) hf
    refine ⟨Nat.le_trans hle h.le_limit, ?_⟩
    simp only [UInt32.size, chunkOverhead]
    omega
  · exact h.epilogue
  · have hshort := Epilogue.length_encode_ofPlaintext_le plaintext
    simp only [UInt32.size, chunkOverhead]
    omega

/-- **A chosen chunk size suits** every plaintext, as the limit of the sender too, and it is not
above the limit that receivers have by default. -/
theorem suits_of_parse {text : String} {size : Nat} (h : ChunkSize.parse text = .ok size)
    (rekeyInterval : UInt32) (plaintext : Bytes) :
    Suits size { rekeyInterval, maxChunkLen := UInt64.ofNat size } plaintext ∧
      UInt64.ofNat size ≤ ({} : Config).maxChunkLen := by
  obtain ⟨hleast, hgreatest⟩ := ChunkSize.bounds_of_parse h
  have hlimit := ChunkSize.toNat_of_le hgreatest
  simp only [ChunkSize.least, ChunkSize.greatest] at hleast hgreatest
  have hshort := Epilogue.length_encode_ofPlaintext_le plaintext
  refine ⟨⟨?_, ?_, ?_⟩, UInt64.le_iff_toNat_le.mpr ?_⟩
  · simp only [UInt32.size, chunkOverhead]
    omega
  · rw [hlimit]
    omega
  · rw [hlimit]
    omega
  · rw [hlimit]
    exact hgreatest

/-! ## There and back -/

/-- The check accepts the epilogue of the plaintext itself. -/
theorem check_ofPlaintext (hlt : plaintext.length < UInt64.size) :
    check plaintext (Epilogue.ofPlaintext plaintext).encode =
      .ok (Epilogue.ofPlaintext plaintext) :=
  check_eq_ok_iff.mpr
    ⟨Epilogue.decode_encode_ofPlaintext plaintext, Epilogue.matches_ofPlaintext hlt⟩

/-- **A plaintext comes back:** what encryption writes for it is decrypted again, from any healthy
source into any healthy sink, and both sides give its epilogue. -/
def ComesBack {ρ : Type} [Entropy ρ] (ends : Ends) (key : SessionKey) (random : ρ)
    (sending receiving : Config) (chunkSize : Nat) (plaintext : Bytes) : Prop :=
  ∃ written,
    (encrypt ends key random sending chunkSize).result = .ok (Epilogue.ofPlaintext plaintext) ∧
    (encrypt ends key random sending chunkSize).state.sink.contents =
      ends.sink.contents ++ written ∧
    ∀ other : Ends, other.source.Healthy → other.source.rest = written → other.sink.Healthy →
      (decrypt other key receiving).result = .ok (Epilogue.ofPlaintext plaintext) ∧
      (decrypt other key receiving).state.sink.contents = other.sink.contents ++ plaintext

section

variable {ρ : Type} [Entropy ρ] {random : ρ} {header : Header} {ends : Ends}

/-- **A plaintext is encrypted** on healthy ends, under settings that suit. -/
theorem Suits.encrypt (h : Suits chunkSize config plaintext)
    (hdraw : (Entropy.draw random 24).1 = .ok header) (key : SessionKey) (ends : Ends)
    (hsource : ends.source.Delivers plaintext none) (hsink : ends.sink.Healthy) :
    (Pipe.encrypt ends key random config chunkSize).result = .ok (Epilogue.ofPlaintext plaintext) ∧
      (Pipe.encrypt ends key random config chunkSize).state.sink.contents = ends.sink.contents ++
        (header.bytes ++ wire (.fresh key header config) (allFrames chunkSize plaintext)) :=
  encrypt_of_allFit hdraw h.maxChunkLen_ne_zero (h.allFit key header) hsource hsink

/-- **The frames of a plaintext are decrypted** to it, into any healthy sink and whatever comes
behind them, if they fit, with both sides in step and the limit of the receiver not below that of
the sender. -/
theorem decrypt_of_allFit {sending receiving : Config} {key : SessionKey} {back : Bytes}
    {ending : Option IoFault}
    (hfit : AllFit (.fresh key header sending) (allFrames chunkSize plaintext))
    (hclamp : max 1 (min sending.rekeyInterval.toNat Config.maxRekeyInterval.toNat) =
      max 1 (min receiving.rekeyInterval.toNat Config.maxRekeyInterval.toNat))
    (hlimit : sending.maxChunkLen ≤ receiving.maxChunkLen)
    (hlt : plaintext.length < UInt64.size) (ends : Ends)
    (hsource : ends.source.Delivers (header.bytes ++
      (wire (.fresh key header sending) (allFrames chunkSize plaintext) ++ back)) ending)
    (hsink : ends.sink.Healthy) :
    (Pipe.decrypt ends key receiving).result = .ok (Epilogue.ofPlaintext plaintext) ∧
      (Pipe.decrypt ends key receiving).state.sink.contents = ends.sink.contents ++ plaintext := by
  have hinStep := inStep_of_clamped hclamp key header
  -- the receiver reads the same frames from this wire
  rw [← wire_inStep hinStep] at hsource
  obtain ⟨hdecrypted, hcontents, -⟩ := decrypt_whole (hfit.inStep hinStep hlimit)
    (fun _ => ne_final_of_mem_dataFrames) hsink hsource
  rw [flatMap_dataFrames] at hdecrypted hcontents
  exact ⟨hdecrypted.trans (check_ofPlaintext hlt), hcontents⟩

/-- So they are from any healthy source, under settings that suit. -/
theorem Suits.decrypt {sending receiving : Config} (h : Suits chunkSize sending plaintext)
    (hclamp : max 1 (min sending.rekeyInterval.toNat Config.maxRekeyInterval.toNat) =
      max 1 (min receiving.rekeyInterval.toNat Config.maxRekeyInterval.toNat))
    (hlimit : sending.maxChunkLen ≤ receiving.maxChunkLen)
    (hlt : plaintext.length < UInt64.size) {key : SessionKey} (ends : Ends)
    (hsource : ends.source.Healthy) (hrest : ends.source.rest = header.bytes ++
      wire (.fresh key header sending) (allFrames chunkSize plaintext))
    (hsink : ends.sink.Healthy) :
    (Pipe.decrypt ends key receiving).result = .ok (Epilogue.ofPlaintext plaintext) ∧
      (Pipe.decrypt ends key receiving).state.sink.contents = ends.sink.contents ++ plaintext := by
  rw [← List.append_nil (wire _ _)] at hrest
  exact decrypt_of_allFit (h.allFit key header) hclamp hlimit hlt ends (hsource.delivers hrest)
    hsink

/-- Under such settings a plaintext comes back. -/
theorem Suits.comesBack {sending receiving : Config} (h : Suits chunkSize sending plaintext)
    (hdraw : (Entropy.draw random 24).1 = .ok header) (key : SessionKey)
    (hclamp : max 1 (min sending.rekeyInterval.toNat Config.maxRekeyInterval.toNat) =
      max 1 (min receiving.rekeyInterval.toNat Config.maxRekeyInterval.toNat))
    (hlimit : sending.maxChunkLen ≤ receiving.maxChunkLen)
    (hlt : plaintext.length < UInt64.size) (hsource : ends.source.Healthy)
    (hrest : ends.source.rest = plaintext) (hsink : ends.sink.Healthy) :
    ComesBack ends key random sending receiving chunkSize plaintext := by
  obtain ⟨hencrypted, hwritten⟩ := h.encrypt hdraw key ends (hsource.delivers hrest) hsink
  exact ⟨_, hencrypted, hwritten, fun other hsource' hrest' hsink' =>
    h.decrypt hclamp hlimit hlt other hsource' hrest' hsink'⟩

/-- **Every plaintext comes back.** A plaintext of less than `2 ^ 64` bytes that a healthy source
holds is encrypted into a healthy sink with an epilogue that matches it, and what was written is
decrypted to this plaintext with the same epilogue, if the settings of the sender suit it, the
numbers of chunks per subkey agree once they are brought into the accepted range, and the limit of
the receiver is not below that of the sender. Each chunk size that may be chosen, if it is the
limit of the sender as well, suits every plaintext, for a receiver that has the limit by
default. -/
theorem plaintext_comes_back (hdraw : (Entropy.draw random 24).1 = .ok header) (key : SessionKey)
    (hlt : plaintext.length < UInt64.size) (hsource : ends.source.Healthy)
    (hrest : ends.source.rest = plaintext) (hsink : ends.sink.Healthy) :
    (Epilogue.ofPlaintext plaintext).Matches plaintext ∧
    (∀ (chunkSize : Nat) (sending receiving : Config), Suits chunkSize sending plaintext →
      max 1 (min sending.rekeyInterval.toNat Config.maxRekeyInterval.toNat) =
        max 1 (min receiving.rekeyInterval.toNat Config.maxRekeyInterval.toNat) →
      sending.maxChunkLen ≤ receiving.maxChunkLen →
      ComesBack ends key random sending receiving chunkSize plaintext) ∧
    ∀ (text : String) (size : Nat) (sent received : UInt32), ChunkSize.parse text = .ok size →
      max 1 (min sent.toNat Config.maxRekeyInterval.toNat) =
        max 1 (min received.toNat Config.maxRekeyInterval.toNat) →
      Suits size { rekeyInterval := sent, maxChunkLen := UInt64.ofNat size } plaintext ∧
      ComesBack ends key random { rekeyInterval := sent, maxChunkLen := UInt64.ofNat size }
        { rekeyInterval := received } size plaintext := by
  refine ⟨Epilogue.matches_ofPlaintext hlt, ?_, ?_⟩
  · intro chunkSize sending receiving hsuits hclamp hlimit
    exact hsuits.comesBack hdraw key hclamp hlimit hlt hsource hrest hsink
  · intro text size sent received hparse hclamp
    obtain ⟨hsuits, hlimit⟩ := suits_of_parse hparse sent plaintext
    exact ⟨hsuits, hsuits.comesBack hdraw key hclamp hlimit hlt hsource hrest hsink⟩

end

/-- Three bytes that come in pieces, and a sink that takes them one by one. -/
def threeBytes : Ends where
  source := { rest := [1, 2, 3], turns := [.interrupt, .upTo 2] }
  sink := { stride := some 1 }

/-- The three bytes come back in chunks of one byte and in the least chunks that may be chosen. -/
theorem plaintext_comes_back_in_pieces :
    (Entropy.draw (Tape.mk (Octets.zero 24).bytes) 24).1 = .ok (Octets.zero 24) ∧
      threeBytes.source.Healthy ∧ threeBytes.sink.Healthy ∧
      (Epilogue.ofPlaintext [1, 2, 3]).Matches [1, 2, 3] ∧
      ComesBack threeBytes (.zero 32) (Tape.mk (Octets.zero 24).bytes)
        { rekeyInterval := 2, maxChunkLen := 88 } { rekeyInterval := 2, maxChunkLen := 100 } 0
        [1, 2, 3] ∧
      ChunkSize.parse "256" = .ok 256 ∧
      Suits 256 { rekeyInterval := 0, maxChunkLen := 256 } [1, 2, 3] ∧
      ComesBack threeBytes (.zero 32) (Tape.mk (Octets.zero 24).bytes)
        { rekeyInterval := 0, maxChunkLen := 256 } { rekeyInterval := 1 } 256 [1, 2, 3] := by
  have hdraw : (Entropy.draw (Tape.mk (Octets.zero 24).bytes) 24).1 = .ok (Octets.zero 24) := rfl
  have hsource : threeBytes.source.Healthy := ⟨by decide, nofun, rfl⟩
  have hsink : threeBytes.sink.Healthy := ⟨by decide, by decide, rfl, rfl⟩
  have hsuits : Suits 0 { rekeyInterval := 2, maxChunkLen := 88 } [1, 2, 3] :=
    ⟨by decide, by decide, Epilogue.length_encode_ofPlaintext_le _⟩
  have hparse : ChunkSize.parse "256" = .ok 256 := rfl
  obtain ⟨hmatches, hany, hchosen⟩ :=
    plaintext_comes_back hdraw (.zero 32) (by decide) hsource rfl hsink
  exact ⟨hdraw, hsource, hsink, hmatches, hany _ _ _ hsuits rfl (by decide), hparse,
    hchosen "256" 256 0 1 hparse rfl⟩

end Pipe

end AeadStream
