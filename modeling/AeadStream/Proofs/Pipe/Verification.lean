import AeadStream.Proofs.Pipe.Soundness

/-!
# What is accepted was verified

That a decryption succeeds says something of the bytes even if its source and its sink are not
healthy: they may cut and interrupt every call and fail at any time. Then the bytes held the whole
plaintext that was handed on, sealed under the key, with an epilogue that matches it.

* `Holds`, `HoldsUnder` — what sealed bytes hold under a key, and under a password;
* `took_of_readPieces` — the frames behind the pieces that were read;
* `holds_of_decrypt`, `holdsUnder_of_decryptWithPassword` — what was accepted was held.
-/

namespace AeadStream.Pipe

open AeadStream.Frame

variable {key : SessionKey} {config : Config} {ends : Ends} {bytes plaintext : Bytes}
  {epilogue : Epilogue}

/-! ## What sealed bytes hold -/

/-- **Bytes hold a plaintext** under a key: they begin with a whole stream of it, and the trailer is
an epilogue that matches. -/
def Holds (key : SessionKey) (config : Config) (bytes plaintext : Bytes) : Prop :=
  ∃ frames trailer left epilogue, BeginsWithWhole key config bytes frames trailer left ∧
    frames.flatMap Prod.fst = plaintext ∧ Epilogue.decode trailer = .ok epilogue ∧
      epilogue.Matches plaintext

/-- **Bytes hold a plaintext under a password:** they begin with a preamble, and what is behind it
holds the plaintext under the key that the preamble gives. -/
def HoldsUnder (password : Bytes) (config : Config) (bytes plaintext : Bytes) : Prop :=
  ∃ (preamble : Preamble) (key : SessionKey) (back : Bytes), bytes = preamble.encode ++ back ∧
    preamble.deriveKey password = .ok key ∧ Holds key config back plaintext

/-- The empty bytes hold no plaintext. -/
theorem not_holds_nil : ¬Holds key config [] plaintext := by
  rintro ⟨frames, trailer, left, epilogue, ⟨-, hbegins⟩, -⟩
  exact not_beginsWith_of_short (by decide) hbegins

/-- Not under a password either. -/
theorem not_holdsUnder_nil {password : Bytes} : ¬HoldsUnder password config [] plaintext := by
  rintro ⟨preamble, key, back, h, -⟩
  have hlen := congrArg List.length h
  rw [List.length_append, Preamble.length_encode, List.length_nil, Preamble.size] at hlen
  omega

/-! ## Reading -/

/-- **Pieces that were read** were there as frames of data with a final one behind them, and the
sink has their plaintexts. -/
theorem took_of_readPieces {r : Reader} {sink : Sink} {done pieces : List Bytes} {trailer : Bytes}
    (h : (readPieces r sink done).result = .ok (pieces, trailer)) :
    ∃ frames : List (Bytes × Tag), (∀ f ∈ frames, f.2 ≠ .final) ∧
      AllFit r.stream (frames ++ [(trailer, .final)]) ∧
      r.source.rest = wire r.stream (frames ++ [(trailer, .final)]) ++
        (readPieces r sink done).state.1.source.rest ∧
      pieces = (frames.map Prod.fst).reverse ++ done ∧
      (readPieces r sink done).state.2.contents = sink.contents ++ frames.flatMap Prod.fst := by
  fun_induction readPieces r sink done with
  | case1 => cases h
  | case2 => cases h
  | case3 r sink done chunk trailer' hresult =>
    obtain ⟨rfl, rfl⟩ := Prod.mk.inj (Except.ok.inj h)
    obtain ⟨hfits, hrest, -⟩ := Reader.took_of_readChunk hresult
    refine ⟨[], nofun, .cons hfits .nil, ?_, rfl, (List.append_nil _).symm⟩
    rw [hrest, List.nil_append, wire, wire, List.append_nil]
  | case4 => cases h
  | case5 r sink done chunk plaintext tag htag hresult sink' hwrite ih =>
    rw [Outcome.result_after] at h
    obtain ⟨frames, hdata, hfit, hwire, hpieces, hcontents⟩ := ih h
    obtain ⟨hfits, hrest, hstream⟩ := Reader.took_of_readChunk hresult
    refine ⟨(plaintext, tag) :: frames, ?_, ?_, ?_, ?_, ?_⟩
    · exact List.forall_mem_cons.mpr ⟨htag, hdata⟩
    · rw [hstream] at hfit
      exact .cons hfits hfit
    · rw [hstream] at hwire
      rw [hrest, hwire, Outcome.state_after, List.cons_append, wire, List.append_assoc]
    · rw [hpieces, List.map_cons, List.reverse_cons, List.append_assoc]
      rfl
    · rw [Outcome.state_after, hcontents, Sink.contents_of_writeAll hwrite, List.flatMap_cons,
        List.append_assoc]

/-! ## Decrypting -/

/-- **What a decryption accepted** was held by the bytes of its source, and the sink has it. -/
theorem holds_of_decrypt (hconfig : config.maxChunkLen ≠ 0)
    (h : (decrypt ends key config).result = .ok epilogue) :
    ∃ plaintext, Holds key config ends.source.rest plaintext ∧
      (decrypt ends key config).state.sink.contents = ends.sink.contents ++ plaintext := by
  rw [decrypt] at h ⊢
  dsimp only at h ⊢
  split at h
  · cases h
  · next reader hstart =>
    obtain ⟨header, hheader, hstream⟩ := Reader.took_of_start hstart
    split at h
    · cases h
    · next pieces trailer hread =>
      obtain ⟨frames, hdata, hfit, hwire, hpieces, hcontents⟩ := took_of_readPieces hread
      rw [List.append_nil] at hpieces
      have hplaintext : pieces.reverse.flatten = frames.flatMap Prod.fst := by
        rw [hpieces, List.reverse_reverse, List.flatMap_def]
      rw [hstream] at hfit hwire
      have hwhole : BeginsWithWhole key config ends.source.rest frames trailer
          (readPieces reader ends.sink []).state.1.source.rest := by
        refine ⟨hdata, ?_⟩
        rw [hheader, hwire]
        exact (beginsWith_iff hconfig header).mpr ⟨hfit, rfl⟩
      split at h
      · cases h
      · next sink hflush =>
        have hsink := Sink.contents_flush (readPieces reader ends.sink []).state.2
        rw [hflush] at hsink
        split at h
        · cases h
        · next epilogue' hcheck =>
          obtain ⟨hdecode, hmatches⟩ := check_eq_ok_iff.mp hcheck
          rw [hplaintext] at hmatches
          refine ⟨_, ⟨frames, trailer, _, epilogue', hwhole, rfl, hdecode, hmatches⟩, ?_⟩
          exact hsink.trans hcontents

/-- **What a decryption under a password accepted** was held by the bytes of its source, and the
sink has it. -/
theorem holdsUnder_of_decryptWithPassword {password : Bytes} (hconfig : config.maxChunkLen ≠ 0)
    (h : (decryptWithPassword ends password config).result = .ok epilogue) :
    ∃ plaintext, HoldsUnder password config ends.source.rest plaintext ∧
      (decryptWithPassword ends password config).state.sink.contents =
        ends.sink.contents ++ plaintext := by
  rw [decryptWithPassword] at h ⊢
  split at h
  · cases h
  · next preamble source hread =>
    split at h
    · cases h
    · next key hkey =>
      rw [Outcome.result_after] at h
      obtain ⟨plaintext, hholds, hcontents⟩ := holds_of_decrypt hconfig h
      refine ⟨plaintext, ⟨preamble, key, source.rest, ?_, hkey, hholds⟩, ?_⟩
      · exact (Preamble.taken_of_read hread).1
      · rw [Outcome.state_after]
        exact hcontents

end AeadStream.Pipe
