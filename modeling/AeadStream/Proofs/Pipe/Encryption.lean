import AeadStream.Pipe
import AeadStream.Proofs.Frame.Wire
import AeadStream.Proofs.Pipe.Pieces
import AeadStream.Proofs.Preamble

/-!
# The course of encryption

Encryption cuts what its source holds into pieces and writes a frame of data for each, and then
the final frame with the epilogue.

* `writePieces_of_allFit`, `encrypt_of_allFit` — it does so on healthy ends if the frames fit;
* `encryptWithPassword_of_draw` — under a password it does so behind a preamble;
* `completed_of_encrypt` — how it went, on any ends, if it succeeded;
* `sent_of_writePieces`, `sent_of_encrypt`, `sent_of_encryptWithPassword` — what it sent then.
-/

namespace AeadStream.Pipe

open AeadStream.Frame

variable {size : Nat} {plaintext : Bytes}

/-! ## Writing pieces -/

section

variable {source source' : Source} {w w' : Writer} {done : List Bytes} {events : List Event}

/-- Nothing is left. -/
theorem writePieces_nil (hfill : source.fill size = (.ok [], source')) :
    writePieces size source w done = ⟨.ok done, (source', w), []⟩ := by
  rw [writePieces]
  split
  · next h => rw [hfill] at h; cases h
  · next h => rw [hfill] at h; cases h; rfl
  · next h => rw [hfill] at h; cases h

/-- A piece is written, and the writing goes on behind it unless it is short. -/
theorem writePieces_cons {piece : Bytes} (hne : piece ≠ [])
    (hfill : source.fill size = (.ok piece, source'))
    (hwrite : w.writeChunk piece .message = ⟨.ok (), w', events⟩) :
    writePieces size source w done =
      if piece.length < size then ⟨.ok (piece :: done), (source', w'), events⟩
      else (writePieces size source' w' (piece :: done)).after events := by
  rw [writePieces]
  split
  · next h => rw [hfill] at h; cases h
  · next h => rw [hfill] at h; cases h; exact absurd rfl hne
  · next h =>
    rw [hfill] at h
    cases h
    simp only [hwrite]

end

/-- **A plaintext whose frames fit is written** to a healthy sink, from a source that delivers
it. -/
theorem writePieces_of_allFit (hsize : size ≠ 0) :
    ∀ {source : Source} {w : Writer} (done : List Bytes), source.Delivers plaintext none →
      w.sink.Healthy → AllFit w.stream (dataFrames size plaintext) →
      ∃ (source' : Source) (sink : Sink) (events : List Event),
        writePieces size source w done =
          ⟨.ok ((pieces size plaintext).reverse ++ done),
            (source', { w with stream := behind w.stream (dataFrames size plaintext), sink }),
            events⟩ ∧
        sink.Healthy ∧
        sink.contents = w.sink.contents ++ wire w.stream (dataFrames size plaintext) := by
  induction plaintext using pieces_induction hsize with
  | nil =>
    intro source w done hsource hsink _
    obtain ⟨source', hfill, -⟩ := hsource.fill size
    rw [List.take_nil] at hfill
    refine ⟨source', w.sink, [], ?_, hsink, ?_⟩
    · rw [writePieces_nil hfill, dataFrames_nil, pieces]
      rfl
    · rw [dataFrames_nil, wire, List.append_nil]
  | short piece hne hshort =>
    intro source w done hsource hsink hfit
    have hle := Nat.le_of_lt hshort
    obtain ⟨source', hfill, -⟩ := hsource.fill size
    rw [List.take_of_length_le hle] at hfill
    rw [dataFrames_of_le hne hle] at hfit ⊢
    obtain _ | ⟨hfits, -⟩ := hfit
    obtain ⟨sink, hwrite, hhealthy, hcontents⟩ := Writer.writeChunk_of_fits hsink hfits .message
    refine ⟨source', sink, (w.stream.advance .message).2, ?_, hhealthy, ?_⟩
    · rw [writePieces_cons hne hfill hwrite, if_pos hshort, pieces_eq_singleton hne hle]
      rfl
    · rw [hcontents, wire, wire, List.append_nil]
  | whole piece left hlen ih =>
    intro source w done hsource hsink hfit
    have hne : piece ≠ [] := mt List.length_eq_zero_iff.mpr (hlen.trans_ne hsize)
    obtain ⟨source₁, hfill, hnext⟩ := hsource.fill size
    rw [List.take_left' hlen] at hfill
    rw [List.drop_left' hlen] at hnext
    rw [dataFrames_append hsize hlen] at hfit ⊢
    obtain _ | ⟨hfits, hlater⟩ := hfit
    obtain ⟨sink₁, hwrite, hhealthy₁, hcontents₁⟩ :=
      Writer.writeChunk_of_fits hsink hfits .message
    obtain ⟨source₂, sink₂, events, hpieces, hhealthy₂, hcontents₂⟩ :=
      ih (w := { w with stream := (w.stream.advance .message).1, sink := sink₁ }) (piece :: done)
        hnext hhealthy₁ hlater
    refine ⟨source₂, sink₂, (w.stream.advance .message).2 ++ events, ?_, hhealthy₂, ?_⟩
    · rw [writePieces_cons hne hfill hwrite, if_neg (by omega), hpieces, pieces_append hsize hlen,
        List.reverse_cons, List.append_assoc, List.singleton_append]
      rfl
    · rw [hcontents₂, hcontents₁, wire, List.append_assoc]

/-- **What was sent** of a source through a writer: its next bytes, as frames that fit and are in
the sink. -/
structure Sent (size : Nat) (source : Source) (w : Writer) (plaintext : Bytes) (source' : Source)
    (w' : Writer) : Prop where
  rest : source.rest = plaintext ++ source'.rest
  fits : AllFit w.stream (dataFrames size plaintext)
  stream : w'.stream = behind w.stream (dataFrames size plaintext)
  contents : w'.sink.contents = w.sink.contents ++ wire w.stream (dataFrames size plaintext)

/-- Nothing was sent. -/
theorem Sent.nil {source source' : Source} (w : Writer) (hrest : source.rest = source'.rest) :
    Sent size source w [] source' w := by
  refine ⟨hrest, ?_, ?_, ?_⟩
  · rw [dataFrames_nil]
    exact .nil
  · rw [dataFrames_nil, behind]
  · rw [dataFrames_nil, wire, List.append_nil]

/-- A piece was sent before, as the first frame. -/
theorem Sent.cons {source source₁ source' : Source} {w w₁ w' : Writer} {piece left : Bytes}
    (hrest : source.rest = piece ++ source₁.rest) (hgave : Writer.Gave w piece .message w₁)
    (hframes : dataFrames size (piece ++ left) = (piece, .message) :: dataFrames size left)
    (hsent : Sent size source₁ w₁ left source' w') :
    Sent size source w (piece ++ left) source' w' := by
  obtain ⟨hfits, hcontents, hstream⟩ := hgave
  obtain ⟨hlater, hfit, hbehind, hwire⟩ := hsent
  rw [hstream] at hfit hbehind hwire
  refine ⟨?_, ?_, ?_, ?_⟩
  · rw [hrest, hlater, List.append_assoc]
  · rw [hframes]
    exact .cons hfits hfit
  · rw [hframes, behind, hbehind]
  · rw [hframes, wire, hwire, hcontents, List.append_assoc]

/-- **Pieces that were written** of any source are those of its next bytes, and they were sent. -/
theorem sent_of_writePieces {source : Source} {w : Writer} {done written : List Bytes}
    (hsize : size ≠ 0) (h : (writePieces size source w done).result = .ok written) :
    ∃ plaintext, written = (pieces size plaintext).reverse ++ done ∧
      Sent size source w plaintext (writePieces size source w done).state.1
        (writePieces size source w done).state.2 := by
  fun_induction writePieces size source w done with
  | case1 => cases h
  | case2 source w done source' hfill =>
    obtain rfl := Except.ok.inj h
    exact ⟨[], by rw [pieces]; rfl, .nil w (Source.fill_ok hfill)⟩
  | case3 => cases h
  | case4 source w done b bs source' hfill sent hresult hshort =>
    -- a short piece is the last one
    obtain rfl := Except.ok.inj h
    have hne := List.cons_ne_nil b bs
    have hle := Nat.le_of_lt hshort
    refine ⟨b :: bs ++ [], ?_, .cons (Source.fill_ok hfill) (Writer.gave_of_writeChunk hresult) ?_
      (.nil _ rfl)⟩
    · rw [List.append_nil, pieces_eq_singleton hne hle]
      rfl
    · rw [List.append_nil, dataFrames_of_le hne hle, dataFrames_nil]
  | case5 source w done b bs source' hfill sent hresult hshort ih =>
    obtain ⟨hrest, hle⟩ := Source.fill_eq_ok hfill
    obtain ⟨plaintext, hwritten, hsent⟩ := ih h
    have hlen : (b :: bs).length = size := Nat.le_antisymm hle (Nat.not_lt.mp hshort)
    refine ⟨b :: bs ++ plaintext, ?_, .cons hrest (Writer.gave_of_writeChunk hresult)
      (dataFrames_append hsize hlen plaintext) hsent⟩
    rw [hwritten, pieces_append hsize hlen, List.reverse_cons, List.append_assoc,
      List.singleton_append]

/-! ## Encrypting -/

section

variable {ρ : Type} [Entropy ρ] {random : ρ} {header : Header} {ends : Ends} {key : SessionKey}
  {config : Config} {chunkSize : Nat}

/-- **The frames of an encryption:** those of data and the final one with the epilogue. -/
def allFrames (chunkSize : Nat) (plaintext : Bytes) : List (Bytes × Tag) :=
  dataFrames (max chunkSize 1) plaintext ++ [((Epilogue.ofPlaintext plaintext).encode, .final)]

theorem max_one_ne_zero (n : Nat) : max n 1 ≠ 0 := by omega

/-- **A plaintext is encrypted** if its frames fit, on ends that are healthy. -/
theorem encrypt_of_allFit (hdraw : (Entropy.draw random 24).1 = .ok header)
    (hconfig : config.maxChunkLen ≠ 0)
    (hfit : AllFit (.fresh key header config) (allFrames chunkSize plaintext))
    (hsource : ends.source.Delivers plaintext none) (hsink : ends.sink.Healthy) :
    (encrypt ends key random config chunkSize).result = .ok (Epilogue.ofPlaintext plaintext) ∧
      (encrypt ends key random config chunkSize).state.sink.contents = ends.sink.contents ++
        (header.bytes ++ wire (.fresh key header config) (allFrames chunkSize plaintext)) := by
  obtain ⟨hdata, _ | ⟨hlast, -⟩⟩ := allFit_append.mp hfit
  obtain ⟨begun, hstart, hhealthy, hheader⟩ := Writer.start_of_draw hdraw hconfig hsink key
  obtain ⟨source, sink, events, hpieces, hhealthy', hcontents⟩ :=
    writePieces_of_allFit (max_one_ne_zero chunkSize)
      (w := .upon begun (.fresh key header config)) [] hsource hhealthy hdata
  rw [Writer.stream_upon] at hpieces hcontents
  have hfinish := Writer.finish_of_fits
    (w := { Writer.upon begun (.fresh key header config) with
      stream := behind (.fresh key header config) (dataFrames (max chunkSize 1) plaintext), sink })
    hhealthy' hlast
  rw [encrypt]
  simp only [hstart, hpieces, List.append_nil, List.reverse_reverse, flatten_pieces, hfinish.1]
  refine ⟨trivial, ?_⟩
  rw [hfinish.2, hcontents, Writer.sink_upon, hheader, allFrames, wire_append]
  simp only [List.append_assoc]

/-- **Behind a preamble** with the salt that was drawn, encryption under a password goes on under
the key that is derived from it. -/
theorem encryptWithPassword_of_draw {random' : ρ} {password : Bytes} {costs : Argon2.Costs}
    {salt : Octets 16} (hne : password ≠ []) (hlt : password.length < UInt32.size)
    (hcheck : costs.check = .ok ()) (hsalt : Entropy.draw random 16 = (.ok salt, random'))
    (hsink : ends.sink.Healthy) (config : Config) (chunkSize : Nat) :
    ∃ sink, sink.Healthy ∧
      sink.contents = ends.sink.contents ++ (Preamble.mk salt costs).encode ∧
      encryptWithPassword ends password random costs config chunkSize =
        (encrypt { ends with sink } (Argon2.hash costs password salt.bytes) random' config
          chunkSize).after (Preamble.mk salt costs).derived := by
  have hkey : (Preamble.mk salt costs).deriveKey password =
      .ok (Argon2.hash costs password salt.bytes) := Preamble.deriveKey_eq_ok hne hlt hcheck
  obtain ⟨sink, hwrite, hhealthy, hcontents⟩ := hsink.writeAll (Preamble.mk salt costs).encode
  refine ⟨sink, hhealthy, hcontents, ?_⟩
  rw [encryptWithPassword, Preamble.generate_of_draw hcheck hsalt]
  simp only [hkey, hwrite]

/-- **How an encryption went** that succeeded: a writer began, the pieces of a plaintext were
written with it, and then the final frame. The summary is reported behind everything else. -/
structure Completed (ends : Ends) (key : SessionKey) (random : ρ) (config : Config)
    (chunkSize : Nat) (w : Writer) (plaintext : Bytes) (source : Source) (w' : Writer)
    (events : List Event) : Prop where
  start : (Writer.start ends.sink key random config).result = .ok w
  data : writePieces (max chunkSize 1) ends.source w [] =
    ⟨.ok (pieces (max chunkSize 1) plaintext).reverse, (source, w'), events⟩
  last : (w'.finish (Epilogue.ofPlaintext plaintext).encode).result = .ok ()
  outcome : encrypt ends key random config chunkSize =
    ⟨.ok (Epilogue.ofPlaintext plaintext),
      ⟨source, (w'.finish (Epilogue.ofPlaintext plaintext).encode).state.sink⟩,
      (Writer.start ends.sink key random config).events ++ events ++
        (w'.finish (Epilogue.ofPlaintext plaintext).encode).events ++
        [.streamEncrypted plaintext.length w'.stream.counter.toNat]⟩

/-- An encryption that succeeded went like this, and what was written was sent. -/
theorem completed_of_encrypt {epilogue : Epilogue}
    (h : (encrypt ends key random config chunkSize).result = .ok epilogue) :
    ∃ (w : Writer) (plaintext : Bytes) (source : Source) (w' : Writer) (events : List Event),
      Completed ends key random config chunkSize w plaintext source w' events ∧
        Sent (max chunkSize 1) ends.source w plaintext source w' := by
  cases hstart : (Writer.start ends.sink key random config).result with
  | error fault =>
    rw [encrypt] at h
    simp only [hstart] at h
    cases h
  | ok w =>
    rcases hdata : writePieces (max chunkSize 1) ends.source w [] with
      ⟨_ | written, ⟨source, w'⟩, events⟩
    · rw [encrypt] at h
      simp only [hstart, hdata] at h
      cases h
    · obtain ⟨plaintext, rfl, hsent⟩ :=
        sent_of_writePieces (max_one_ne_zero chunkSize) (congrArg Outcome.result hdata)
      rw [List.append_nil] at hdata
      rw [hdata] at hsent
      cases hlast : (w'.finish (Epilogue.ofPlaintext plaintext).encode).result with
      | error fault =>
        rw [encrypt] at h
        simp only [hstart, hdata, List.reverse_reverse, flatten_pieces, hlast] at h
        cases h
      | ok _ =>
        refine ⟨w, plaintext, source, w', events, ⟨hstart, hdata, hlast, ?_⟩, hsent⟩
        rw [encrypt]
        simp only [hstart, hdata, List.reverse_reverse, flatten_pieces, hlast]

/-- **What an encryption sent** of any source, if it succeeded: the header that was drawn and the
frames of the next bytes. -/
theorem sent_of_encrypt {epilogue : Epilogue}
    (h : (encrypt ends key random config chunkSize).result = .ok epilogue) :
    ∃ (header : Header) (plaintext : Bytes), (Entropy.draw random 24).1 = .ok header ∧
      config.maxChunkLen ≠ 0 ∧ epilogue = Epilogue.ofPlaintext plaintext ∧
      ends.source.rest =
        plaintext ++ (encrypt ends key random config chunkSize).state.source.rest ∧
      AllFit (.fresh key header config) (allFrames chunkSize plaintext) ∧
      (encrypt ends key random config chunkSize).state.sink.contents = ends.sink.contents ++
        (header.bytes ++ wire (.fresh key header config) (allFrames chunkSize plaintext)) := by
  obtain ⟨w, plaintext, source, w', events, ⟨hstart, -, hlast, houtcome⟩, hsent⟩ :=
    completed_of_encrypt h
  obtain ⟨hconfig, header, hdraw, hstream, hheader⟩ := Writer.gave_of_start hstart
  obtain ⟨hfits, hcontents⟩ := Writer.gave_of_finish hlast
  have hfit := hsent.fits
  rw [hsent.stream, hstream] at hfits
  rw [hsent.contents, hsent.stream, hheader, hstream] at hcontents
  rw [hstream] at hfit
  rw [houtcome] at h ⊢
  refine ⟨header, plaintext, hdraw, hconfig, (Except.ok.inj h).symm, hsent.rest,
    allFit_append.mpr ⟨hfit, .cons hfits .nil⟩, ?_⟩
  rw [allFrames, wire_append]
  simpa only [List.append_assoc] using hcontents

/-- **What an encryption under a password sent,** if it succeeded: a preamble with costs that are
accepted, and then the stream under the key that is derived from it. -/
theorem sent_of_encryptWithPassword {password : Bytes} {costs : Argon2.Costs} {epilogue : Epilogue}
    (h : (encryptWithPassword ends password random costs config chunkSize).result =
      .ok epilogue) :
    ∃ (preamble : Preamble) (key : SessionKey) (header : Header) (plaintext : Bytes),
      preamble.costs.check = .ok () ∧ preamble.deriveKey password = .ok key ∧
      epilogue = Epilogue.ofPlaintext plaintext ∧
      ends.source.rest = plaintext ++
        (encryptWithPassword ends password random costs config chunkSize).state.source.rest ∧
      AllFit (.fresh key header config) (allFrames chunkSize plaintext) ∧
      (encryptWithPassword ends password random costs config chunkSize).state.sink.contents =
        ends.sink.contents ++ (preamble.encode ++
          (header.bytes ++ wire (.fresh key header config) (allFrames chunkSize plaintext))) := by
  rw [encryptWithPassword] at h ⊢
  split at h
  · cases h
  · next preamble random' hgenerate =>
    split at h
    · cases h
    · next key hkey =>
      split at h
      · cases h
      · next sink hwrite =>
        rw [Outcome.result_after] at h
        obtain ⟨header, plaintext, -, -, hepilogue, hrest, hfit, hcontents⟩ := sent_of_encrypt h
        simp only [Outcome.state_after]
        refine ⟨preamble, key, header, plaintext, Preamble.check_of_generate hgenerate, hkey,
          hepilogue, hrest, hfit, ?_⟩
        rw [← List.append_assoc, ← Sink.contents_of_writeAll hwrite]
        exact hcontents

end

end AeadStream.Pipe
