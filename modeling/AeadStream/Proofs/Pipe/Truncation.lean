import AeadStream.Proofs.Frame.Canonical
import AeadStream.Proofs.Frame.Cut
import AeadStream.Proofs.Pipe.Decryption
import AeadStream.Proofs.Pipe.Encryption

/-!
# Truncation is never silent

Of a stream that was cut short anywhere, decryption hands on the frames of data that are there
wholly and then fails: with the fault of the source if it has one, and otherwise with one that
says that the bytes ran out. A stream under a password may be cut in its preamble too.

* `NeverSilent` — what decryption makes of every cut;
* `decrypt_of_cut`, `decryptWithPassword_of_cut` — of one cut;
* `truncation_is_never_silent` — for all that writers and encryptions write.
-/

namespace AeadStream.Pipe

open AeadStream.Frame

variable {frames : List (Bytes × Tag)} {written : Bytes}

/-! ## Cuts -/

/-- **The outcome fails** with this fault, once the plaintexts of these frames were handed on to
the sink. -/
structure FailsBehind (o : Outcome CommandFault Ends Epilogue) (sink : Sink)
    (frames : List (Bytes × Tag)) (fault : IoFault) : Prop where
  result : o.result = .error (.io fault)
  contents : o.state.sink.contents = sink.contents ++ frames.flatMap Prod.fst

/-- **Never silent** on what was written, of which the first `front` bytes come before these frames
of data: if it was cut anywhere, then the frames within are handed on and there is a fault. The
fault says that the bytes ran out, or it is that of the source, if this fails at the cut with a
fault of its own. -/
def NeverSilent (decrypt : Ends → Outcome CommandFault Ends Epilogue) (front : Nat)
    (frames : List (Bytes × Tag)) (written : Bytes) : Prop :=
  ∀ cut < written.length, ∀ ends : Ends, ends.sink.Healthy →
    (ends.source.Delivers (written.take cut) none →
      ∃ fault, fault.kind = .unexpectedEnd ∧
        FailsBehind (decrypt ends) ends.sink (within (cut - front) frames) fault) ∧
    ∀ fault : IoFault, fault.kind ≠ .unexpectedEnd →
      ends.source.Delivers (written.take cut) (some fault) →
      FailsBehind (decrypt ends) ends.sink (within (cut - front) frames) fault

/-- A fault at every cut that is reported as that of the source is never silent. -/
theorem neverSilent_of_reports {decrypt : Ends → Outcome CommandFault Ends Epilogue} {front : Nat}
    (h : ∀ cut < written.length, ∀ (ends : Ends) (ending : Option IoFault),
      ends.sink.Healthy → ends.source.Delivers (written.take cut) ending →
      ∃ fault, Reports (ending.getD .endOfInput) fault ∧
        FailsBehind (decrypt ends) ends.sink (within (cut - front) frames) fault) :
    NeverSilent decrypt front frames written := by
  intro cut hcut ends hsink
  constructor
  · intro hsource
    obtain ⟨fault, hreports, hfails⟩ := h cut hcut ends none hsink hsource
    exact ⟨fault, hreports.kind, hfails⟩
  · intro fault hkind hsource
    obtain ⟨fault', hreports, hfails⟩ := h cut hcut ends (some fault) hsink hsource
    obtain rfl : fault' = fault := hreports.same hkind
    exact hfails

section

variable {key : SessionKey} {config : Config} {header : Header} {trailer : Bytes} {ends : Ends}
  {ending : Option IoFault} {cut : Nat}

/-- **A stream that was cut** in its header or in one of its frames. -/
theorem decrypt_of_cut (ends : Ends)
    (hfit : AllFit (.fresh key header config) (frames ++ [(trailer, .final)]))
    (hdata : ∀ f ∈ frames, f.2 ≠ .final)
    (hcut : cut < (header.bytes ++
      wire (.fresh key header config) (frames ++ [(trailer, .final)])).length)
    (hsink : ends.sink.Healthy)
    (hsource : ends.source.Delivers ((header.bytes ++
      wire (.fresh key header config) (frames ++ [(trailer, .final)])).take cut) ending) :
    ∃ fault, Reports (ending.getD .endOfInput) fault ∧
      FailsBehind (decrypt ends key config) ends.sink (within (cut - 24) frames) fault := by
  rw [List.length_append, header.length_bytes] at hcut
  by_cases hheader : cut < 24
  · -- not even the header is left
    have hlt : ((header.bytes ++
        wire (.fresh key header config) (frames ++ [(trailer, .final)])).take cut).length < 24 :=
      Nat.lt_of_le_of_lt (List.length_take_le ..) hheader
    obtain ⟨hresult, hsame⟩ := decrypt_short hsource hlt key config
    refine ⟨_, .refl _, hresult, ?_⟩
    rw [hsame, Nat.sub_eq_zero_of_le (Nat.le_of_lt hheader), within_zero]
    exact (List.append_nil _).symm
  · obtain ⟨f, part, cutOff, back, hall, htake, hframe, hsome⟩ :=
      take_wire frames (trailer, .final) (s := .fresh key header config) (n := cut - 24) (by omega)
    rw [hall] at hfit
    obtain ⟨hwithin, _ | ⟨hfits, -⟩⟩ := allFit_append.mp hfit
    rw [List.take_append, header.length_bytes, htake,
      List.take_of_length_le (by rw [header.length_bytes]; omega)] at hsource
    -- behind the frames within there is a part of a frame
    obtain ⟨r, hlimits, hstream, hpart, hfails⟩ := decrypt_fault hwithin
      (fun f hf => hdata f (mem_of_mem_within hf)) hsink hsource
    rw [← hstream] at hfits hframe
    obtain ⟨hresult, hcontents⟩ := hfails _ (Reader.readChunk_of_cut hlimits hpart hfits hframe hsome)
    exact ⟨_, .insideStream _, hresult, hcontents⟩

/-- **A stream under a password that was cut,** in its preamble or behind it. -/
theorem decryptWithPassword_of_cut {preamble : Preamble} {password : Bytes}
    (hcheck : preamble.costs.check = .ok ()) (hkey : preamble.deriveKey password = .ok key)
    (hfit : AllFit (.fresh key header config) (frames ++ [(trailer, .final)]))
    (hdata : ∀ f ∈ frames, f.2 ≠ .final)
    (hcut : cut < (preamble.encode ++ (header.bytes ++
      wire (.fresh key header config) (frames ++ [(trailer, .final)]))).length)
    (hsink : ends.sink.Healthy)
    (hsource : ends.source.Delivers ((preamble.encode ++ (header.bytes ++
      wire (.fresh key header config) (frames ++ [(trailer, .final)]))).take cut) ending) :
    ∃ fault, Reports (ending.getD .endOfInput) fault ∧
      FailsBehind (decryptWithPassword ends password config) ends.sink
        (within (cut - (Preamble.size + 24)) frames) fault := by
  rw [List.length_append, Preamble.length_encode] at hcut
  by_cases hpreamble : cut < Preamble.size
  · -- not even the preamble is left
    obtain ⟨source, hread⟩ := Preamble.read_of_short hsource
      (Nat.lt_of_le_of_lt (List.length_take_le ..) hpreamble)
    refine ⟨_, .refl _, ?_, ?_⟩
    · rw [decryptWithPassword, hread]
    · rw [decryptWithPassword, hread, Nat.sub_eq_zero_of_le (by omega), within_zero]
      exact (List.append_nil _).symm
  · rw [List.take_append, Preamble.length_encode,
      List.take_of_length_le (by rw [Preamble.length_encode]; omega)] at hsource
    obtain ⟨source, hnext, hdecrypt⟩ := decryptWithPassword_of_delivers hcheck hkey hsource config
    obtain ⟨fault, hreports, hresult, hcontents⟩ :=
      decrypt_of_cut { ends with source } hfit hdata (by omega) hsink hnext
    refine ⟨fault, hreports, ?_, ?_⟩
    · rw [hdecrypt]
      exact hresult
    · rw [hdecrypt, ← Nat.sub_sub]
      exact hcontents

end

/-! ## Everything that is written -/

/-- **Truncation is never silent.** This holds for everything that a writer writes of frames of
data and a trailer, for everything that an encryption writes, and, under a password, for
everything that an encryption under it writes. -/
theorem truncation_is_never_silent {ρ : Type} [Entropy ρ] (random : ρ) (key : SessionKey)
    (password : Bytes) (costs : Argon2.Costs) (config : Config) (chunkSize : Nat) (ends : Ends) :
    (∀ (writer : Writer) (frames : List (Bytes × Tag)) (trailer : Bytes),
      (Writer.start ends.sink key random config).result = .ok writer →
      (∀ f ∈ frames, f.2 ≠ .final) →
      Course.results Writer.writeFrame writer frames = frames.map (fun _ => .ok ()) →
      ((Course.state Writer.writeFrame writer frames).finish trailer).result = .ok () →
      ∃ written,
        ((Course.state Writer.writeFrame writer frames).finish trailer).state.sink.contents =
          ends.sink.contents ++ written ∧
        NeverSilent (decrypt · key config) 24 frames written) ∧
    (∀ epilogue, (encrypt ends key random config chunkSize).result = .ok epilogue →
      ∃ plaintext written,
        ends.source.rest =
          plaintext ++ (encrypt ends key random config chunkSize).state.source.rest ∧
        (encrypt ends key random config chunkSize).state.sink.contents =
          ends.sink.contents ++ written ∧
        NeverSilent (decrypt · key config) 24 (dataFrames (max chunkSize 1) plaintext) written) ∧
    ∀ epilogue,
      (encryptWithPassword ends password random costs config chunkSize).result = .ok epilogue →
      ∃ plaintext written,
        ends.source.rest = plaintext ++
          (encryptWithPassword ends password random costs config chunkSize).state.source.rest ∧
        (encryptWithPassword ends password random costs config chunkSize).state.sink.contents =
          ends.sink.contents ++ written ∧
        NeverSilent (decryptWithPassword · password config) (Preamble.size + 24)
          (dataFrames (max chunkSize 1) plaintext) written := by
  refine ⟨?_, ?_, ?_⟩
  · intro writer frames trailer hstart hdata hresults hfinish
    obtain ⟨header, hfit, hcontents⟩ := Writer.gave_whole hstart hresults hfinish
    exact ⟨_, hcontents, neverSilent_of_reports fun _ hcut _ _ hsink hsource =>
      decrypt_of_cut _ hfit hdata hcut hsink hsource⟩
  · intro epilogue hencrypted
    obtain ⟨header, plaintext, -, -, -, hrest, hfit, hcontents⟩ := sent_of_encrypt hencrypted
    exact ⟨plaintext, _, hrest, hcontents, neverSilent_of_reports fun _ hcut _ _ hsink hsource =>
      decrypt_of_cut _ hfit (fun _ => ne_final_of_mem_dataFrames) hcut hsink hsource⟩
  · intro epilogue hencrypted
    obtain ⟨preamble, key', header, plaintext, hcheck, hkey, -, hrest, hfit, hcontents⟩ :=
      sent_of_encryptWithPassword hencrypted
    exact ⟨plaintext, _, hrest, hcontents, neverSilent_of_reports fun _ hcut _ _ hsink hsource =>
      decryptWithPassword_of_cut hcheck hkey hfit (fun _ => ne_final_of_mem_dataFrames) hcut hsink
        hsource⟩

/-- A stream that was cut right before its final frame: its one frame of data is handed on, and
that the bytes ran out is reported. -/
theorem truncation_is_never_silent_before_the_end :
    ∃ writer written fault,
      (Writer.start {} (.zero 32) (Tape.mk (Octets.zero 24).bytes) {}).result = .ok writer ∧
      Course.results Writer.writeFrame writer [([1], .message)] = [.ok ()] ∧
      ((Course.state Writer.writeFrame writer [([1], .message)]).finish []).result = .ok () ∧
      ((Course.state Writer.writeFrame writer [([1], .message)]).finish []).state.sink.contents =
        [] ++ written ∧
      fault.kind = .unexpectedEnd ∧
      (decrypt ⟨{ rest := written.take 46, stride := some 5 }, {}⟩ (.zero 32) {}).result =
        .error (.io fault) ∧
      (decrypt ⟨{ rest := written.take 46, stride := some 5 }, {}⟩ (.zero 32)
        {}).state.sink.contents = [1] := by
  have hdraw : (Entropy.draw (Tape.mk (Octets.zero 24).bytes) 24).1 = .ok (Octets.zero 24) := rfl
  have hsink : Sink.Healthy {} := ⟨by decide, nofun, rfl, rfl⟩
  have hfit : AllFit (.fresh (.zero 32) (.zero 24) {}) ([([1], .message)] ++ [([], .final)]) :=
    allFit_whole rfl (by decide) (by decide) (by decide)
  obtain ⟨writer, hstart, -, -, hwhole⟩ := writes_wire (by decide) hfit
    (Tape.mk (Octets.zero 24).bytes) {} hdraw hsink
  obtain ⟨hresults, hfinish, hcontents⟩ := hwhole [([1], .message)] [] rfl
  obtain ⟨written, hwritten, hnever⟩ :=
    (truncation_is_never_silent (Tape.mk (Octets.zero 24).bytes) (.zero 32) [] {} {} 0
      ⟨{ rest := [] }, {}⟩).1 writer [([1], .message)] [] hstart (by decide) hresults hfinish
  have hlen : 46 < written.length := by
    rw [List.append_cancel_left (hwritten.symm.trans hcontents), List.length_append,
      Octets.length_bytes, length_wire]
    decide
  obtain ⟨fault, hkind, hresult, hpart⟩ :=
    (hnever 46 hlen ⟨{ rest := written.take 46, stride := some 5 }, {}⟩ hsink).1
      ⟨List.not_mem_nil, by simp, .ended rfl rfl⟩
  exact ⟨writer, written, fault, hstart, hresults, hfinish, hwritten, hkind, hresult, hpart⟩

end AeadStream.Pipe
