import AeadStream.Proofs.Frame.Canonical
import AeadStream.Proofs.Frame.Leading
import AeadStream.Proofs.Pipe.Decryption

/-!
# What decryption accepts

Decryption succeeds exactly on bytes that begin with a whole stream whose trailer holds an
epilogue that matches the plaintext. This holds for hostile bytes, in any pieces. What was handed
on when it fails is known as well.

* `BeginsWith`, `BeginsWithWhole` — what a writer could have written at the front of some bytes;
* `Exact` — what decryption makes of the bytes of a source;
* `decryption_is_exact` — that it does.
-/

namespace AeadStream

/-! ## What the bytes begin with -/

namespace Frame

/-- **Bytes that begin with these frames:** a writer under this key and these settings can write
them, under some header, and `left` is behind them. -/
def BeginsWith (key : SessionKey) (config : Config) (bytes : Bytes) (frames : List (Bytes × Tag))
    (left : Bytes) : Prop :=
  ∃ header written, Writes key config header frames written ∧ bytes = written ++ left

/-- **Bytes that begin with a whole stream:** with frames of data and then the final one, which
holds the trailer. -/
def BeginsWithWhole (key : SessionKey) (config : Config) (bytes : Bytes)
    (frames : List (Bytes × Tag)) (trailer left : Bytes) : Prop :=
  (∀ f ∈ frames, f.2 ≠ .final) ∧ BeginsWith key config bytes (frames ++ [(trailer, .final)]) left

variable {key : SessionKey} {config : Config} {bytes left : Bytes} {frames : List (Bytes × Tag)}

/-- Fewer bytes than a header begin with nothing that a writer can write. -/
theorem not_beginsWith_of_short (hlt : bytes.length < 24) :
    ¬BeginsWith key config bytes frames left := by
  rintro ⟨header, written, hwrites, rfl⟩
  obtain ⟨-, -, rfl⟩ := writes_iff.mp hwrites
  rw [List.length_append, List.length_append, header.length_bytes] at hlt
  omega

/-- What the bytes behind a header begin with. -/
theorem beginsWith_iff (hconfig : config.maxChunkLen ≠ 0) (header : Header) :
    BeginsWith key config (header.bytes ++ bytes) frames left ↔
      AllFit (.fresh key header config) frames ∧
        bytes = wire (.fresh key header config) frames ++ left := by
  constructor
  · rintro ⟨header', written, hwrites, h⟩
    obtain ⟨-, hfit, rfl⟩ := writes_iff.mp hwrites
    -- the header is the first 24 bytes
    rw [List.append_assoc] at h
    obtain ⟨hheader, hbytes⟩ := List.append_inj h (by simp)
    obtain rfl := Octets.ext hheader
    exact ⟨hfit, hbytes⟩
  · rintro ⟨hfit, rfl⟩
    exact ⟨header, _, writes_iff.mpr ⟨hconfig, hfit, rfl⟩, (List.append_assoc ..).symm⟩

end Frame

namespace Pipe

open AeadStream.Frame

variable {key : SessionKey} {config : Config} {ends : Ends}

/-! ## Decryption of any bytes -/

/-- **What came of a whole stream** of this plaintext and this trailer, of which `left` is
behind. -/
structure Judged (key : SessionKey) (config : Config) (ends : Ends) (plaintext trailer : Bytes)
    (left : Bytes) : Prop where
  /-- the plaintext is handed on, whatever the check says -/
  contents : (decrypt ends key config).state.sink.contents = ends.sink.contents ++ plaintext
  /-- nothing behind the stream is taken -/
  rest : (decrypt ends key config).state.source.rest = left
  /-- the trailer is no epilogue -/
  epilogue : ∀ fault, Epilogue.decode trailer = .error fault →
    (decrypt ends key config).result = .error (.epilogue fault.message)
  /-- the size is wrong, whatever the digest -/
  size : ∀ e, Epilogue.decode trailer = .ok e → e.size.toNat ≠ plaintext.length →
    (decrypt ends key config).result = .error (.sizeMismatch e.size.toNat plaintext.length)
  /-- the digest is wrong -/
  sha256 : ∀ e, Epilogue.decode trailer = .ok e → e.size.toNat = plaintext.length →
    e.sha256 ≠ Hex.encode (Sha256.digest plaintext).bytes →
    (decrypt ends key config).result =
      .error (.digestMismatch e.sha256 (Hex.encode (Sha256.digest plaintext).bytes))

/-- **What came of other bytes:** a fault of reading, once the plaintexts of these frames were
handed on. They are the longest run of frames that the bytes begin with. -/
structure Refused (key : SessionKey) (config : Config) (ends : Ends)
    (frames : List (Bytes × Tag)) : Prop where
  result : ∃ fault, (decrypt ends key config).result = .error (.io fault)
  contents : (decrypt ends key config).state.sink.contents =
    ends.sink.contents ++ frames.flatMap Prod.fst
  there : frames = [] ∨ ∃ left, BeginsWith key config ends.source.rest frames left
  longest : ∀ frames' left, BeginsWith key config ends.source.rest frames' left →
    frames' <+: frames

/-- **Exact decryption** of the bytes of a source. -/
structure Exact (key : SessionKey) (config : Config) (ends : Ends) : Prop where
  /-- it succeeds exactly on a whole stream with an epilogue that matches -/
  result_iff : ∀ epilogue, (decrypt ends key config).result = .ok epilogue ↔
    ∃ frames trailer left, BeginsWithWhole key config ends.source.rest frames trailer left ∧
      Epilogue.decode trailer = .ok epilogue ∧ epilogue.Matches (frames.flatMap Prod.fst)
  /-- the frames and the trailer of a whole stream decide, and nothing behind them -/
  judged : ∀ frames trailer left,
    BeginsWithWhole key config ends.source.rest frames trailer left →
    Judged key config ends (frames.flatMap Prod.fst) trailer left
  /-- without a whole stream there is a fault of reading -/
  refused : (¬∃ frames trailer left,
      BeginsWithWhole key config ends.source.rest frames trailer left) →
    ∃ frames, Refused key config ends frames

/-- A whole stream is handed on, and the check decides. -/
theorem result_of_whole (hsource : ends.source.Healthy) (hsink : ends.sink.Healthy)
    {frames : List (Bytes × Tag)} {trailer left : Bytes}
    (h : BeginsWithWhole key config ends.source.rest frames trailer left) :
    (decrypt ends key config).result = check (frames.flatMap Prod.fst) trailer ∧
      (decrypt ends key config).state.sink.contents =
        ends.sink.contents ++ frames.flatMap Prod.fst ∧
      (decrypt ends key config).state.source.rest = left := by
  obtain ⟨hdata, header, written, hwrites, hrest⟩ := h
  obtain ⟨-, hfit, rfl⟩ := writes_iff.mp hwrites
  rw [List.append_assoc] at hrest
  obtain ⟨hresult, hcontents, hback⟩ := decrypt_whole hfit hdata hsink (hsource.delivers hrest)
  exact ⟨hresult, hcontents, hback.healthy.2⟩

/-- What comes of a whole stream. -/
theorem judged_of_whole (hsource : ends.source.Healthy) (hsink : ends.sink.Healthy)
    {frames : List (Bytes × Tag)} {trailer left : Bytes}
    (h : BeginsWithWhole key config ends.source.rest frames trailer left) :
    Judged key config ends (frames.flatMap Prod.fst) trailer left := by
  obtain ⟨hresult, hcontents, hrest⟩ := result_of_whole hsource hsink h
  refine ⟨hcontents, hrest, ?_, ?_, ?_⟩
  · intro fault hdecode
    rw [hresult, check, hdecode]
  · intro e hdecode hsize
    rw [hresult, check, hdecode]
    exact if_pos hsize
  · intro e hdecode hsize hsha256
    rw [hresult, check, hdecode]
    simp only [if_neg (Classical.not_not.mpr hsize), if_pos hsha256]

/-- **Other bytes than a whole stream** are refused, behind the longest run of frames. -/
theorem refused_of_not_whole (hconfig : config.maxChunkLen ≠ 0) (hsource : ends.source.Healthy)
    (hsink : ends.sink.Healthy)
    (h : ¬∃ frames trailer left,
      BeginsWithWhole key config ends.source.rest frames trailer left) :
    ∃ frames, Refused key config ends frames := by
  by_cases hlt : ends.source.rest.length < 24
  · -- not even a header is there
    obtain ⟨hresult, hsame⟩ : (decrypt ends key config).result = .error (.io .endOfInput) ∧
        (decrypt ends key config).state.sink = ends.sink :=
      decrypt_short (hsource.delivers rfl) hlt key config
    refine ⟨[], ⟨_, hresult⟩, ?_, .inl rfl, ?_⟩
    · rw [hsame]
      exact (List.append_nil _).symm
    · intro frames' left hbegins
      exact absurd hbegins (not_beginsWith_of_short hlt)
  · obtain ⟨header, bytes, hrest⟩ : ∃ (header : Header) (bytes : Bytes),
        ends.source.rest = header.bytes ++ bytes := by
      refine ⟨⟨ends.source.rest.take 24, ?_⟩, ends.source.rest.drop 24,
        (List.take_append_drop ..).symm⟩
      rw [List.length_take]
      omega
    obtain ⟨frames, back, hfit, rfl, hend⟩ := exists_leading (.fresh key header config) bytes
    rcases hfit.data_or_whole with hdata | ⟨data, trailer, rfl, hdata⟩
    · -- behind the frames of data no other frame begins
      obtain ⟨r, -, hstream, hsource', hfails⟩ :=
        decrypt_fault hfit hdata hsink (hsource.delivers hrest)
      have hphase : r.stream.phase = .streaming := by
        rw [hstream, phase_behind _ hdata]
        rfl
      rw [← hstream, ← hsource'.healthy.2] at hend
      obtain ⟨fault, hfault⟩ := Reader.readChunk_of_exhausted hphase hend
      obtain ⟨hresult, hcontents⟩ := hfails fault hfault
      rw [hstream, hsource'.healthy.2] at hend
      refine ⟨frames, ⟨fault, hresult⟩, hcontents, .inr ⟨back, ?_⟩, ?_⟩
      · rw [hrest]
        exact (beginsWith_iff hconfig header).mpr ⟨hfit, rfl⟩
      · intro frames' left hbegins
        rw [hrest] at hbegins
        obtain ⟨hfit', hbytes⟩ := (beginsWith_iff hconfig header).mp hbegins
        exact leading_of_exhausted hfit' hfit hend hbytes
    · -- a whole stream would be there
      refine absurd ⟨data, trailer, back, hdata, ?_⟩ h
      rw [hrest]
      exact (beginsWith_iff hconfig header).mpr ⟨hfit, rfl⟩

/-- **Decryption is exact.** Whatever a healthy source holds and however it gives it, decryption
into a healthy sink succeeds if and only if the bytes begin with a whole stream that a writer
under the same key and settings can write, and its trailer holds an epilogue that matches the
plaintext. If only the epilogue is wrong, then the whole plaintext was handed on and the fault says
what is wrong with it. In every other case there is a fault of reading, and the plaintexts of the
longest run of frames in front were handed on. -/
theorem decryption_is_exact (hconfig : config.maxChunkLen ≠ 0) (hsource : ends.source.Healthy)
    (hsink : ends.sink.Healthy) : Exact key config ends := by
  refine ⟨?_, fun _ _ _ => judged_of_whole hsource hsink,
    refused_of_not_whole hconfig hsource hsink⟩
  intro epilogue
  constructor
  · intro hresult
    by_cases hwhole : ∃ frames trailer left,
        BeginsWithWhole key config ends.source.rest frames trailer left
    · obtain ⟨frames, trailer, left, h⟩ := hwhole
      rw [(result_of_whole hsource hsink h).1] at hresult
      exact ⟨frames, trailer, left, h, check_eq_ok_iff.mp hresult⟩
    · obtain ⟨frames, ⟨fault, hfault⟩, -⟩ := refused_of_not_whole hconfig hsource hsink hwhole
      rw [hfault] at hresult
      cases hresult
  · rintro ⟨frames, trailer, left, h, hmatches⟩
    rw [(result_of_whole hsource hsink h).1]
    exact check_eq_ok_iff.mpr hmatches

/-- A stream of one byte and an empty trailer, with a byte behind it, that comes in pieces. -/
def withoutEpilogue : Ends where
  source := {
    rest := (Octets.zero 24).bytes ++
      (wire (.fresh (.zero 32) (.zero 24) {}) [([1], .message), ([], .final)] ++ [7])
    turns := [.interrupt, .upTo 3] }
  sink := {}

/-- Its byte is handed on although the trailer is no epilogue, and the byte behind is not taken. -/
theorem decryption_is_exact_without_epilogue :
    ({} : Config).maxChunkLen ≠ 0 ∧ withoutEpilogue.source.Healthy ∧
      withoutEpilogue.sink.Healthy ∧ Exact (.zero 32) {} withoutEpilogue ∧
      (decrypt withoutEpilogue (.zero 32) {}).state.sink.contents = [1] ∧
      (decrypt withoutEpilogue (.zero 32) {}).state.source.rest = [7] := by
  have hconfig : ({} : Config).maxChunkLen ≠ 0 := by decide
  have hsource : withoutEpilogue.source.Healthy := ⟨by decide, nofun, rfl⟩
  have hsink : withoutEpilogue.sink.Healthy := ⟨by decide, nofun, rfl, rfl⟩
  have hfit : AllFit (.fresh (.zero 32) (.zero 24) {}) ([([1], .message)] ++ [([], .final)]) :=
    allFit_whole rfl (by decide) (by decide) (by decide)
  have hwhole : BeginsWithWhole (.zero 32) {} withoutEpilogue.source.rest [([1], .message)] [] [7] :=
    ⟨by decide, .zero 24, _, writes_iff.mpr ⟨hconfig, hfit, rfl⟩, (List.append_assoc ..).symm⟩
  have hexact : Exact (.zero 32) {} withoutEpilogue := decryption_is_exact hconfig hsource hsink
  have hjudged := hexact.judged _ _ _ hwhole
  exact ⟨hconfig, hsource, hsink, hexact, hjudged.contents, hjudged.rest⟩

end Pipe

end AeadStream
