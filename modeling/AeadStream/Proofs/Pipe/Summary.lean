import AeadStream.Proofs.Pipe.Ciphertext

/-!
# The summary of an encryption

An encryption that succeeds reports the length of its plaintext and a number of chunks. The number
is the counter of the stream before the final chunk, and every rotation sets this back. So it is
the number of the chunks of data only as long as no rotation happened, and otherwise the number of
those behind the last one.

* `summaries_encrypt` — the one summary that is reported;
* `Completed.reached` — where the stream is before the final chunk;
* `reported_chunks_are_those_of_the_epoch` — the number in the summary;
* `reported_chunks_miss_two_of_three` — a plaintext for which it is too small.
-/

namespace AeadStream

/-- Whether an event is the summary of an encryption. -/
def Event.isSummary : Event → Bool
  | .streamEncrypted .. => true
  | _ => false

/-! ## Everything that is reported before -/

/-- A stream that moves on reports no summary. -/
theorem Stream.summaries_advance (s : Stream) (tag : Tag) :
    (s.advance tag).2.filter Event.isSummary = [] := by
  have hadv := s.advanced tag
  generalize s.advance tag = moved at hadv
  cases hadv <;> rfl

/-- Nor does sending. -/
theorem Stream.summaries_push (s : Stream) (plaintext : Bytes) (tag : Tag) (aad : Bytes) :
    (s.push plaintext tag aad).events.filter Event.isSummary = [] := by
  have hpush := s.pushed plaintext tag aad
  generalize s.push plaintext tag aad = o at hpush
  cases hpush with
  | finalized => rfl
  | tooLong => rfl
  | emitted => exact s.summaries_advance tag

namespace Frame.Writer

/-- A writer that begins reports no summary. -/
theorem summaries_start {ρ : Type} [Entropy ρ] (sink : Sink) (key : SessionKey) (random : ρ)
    (config : Config) : (start sink key random config).events.filter Event.isSummary = [] := by
  have hsender : (Stream.sender key random config).events.filter Event.isSummary = [] := by
    rw [Stream.sender]
    split <;> rfl
  rw [start]
  split
  · rfl
  · dsimp only
    split
    · exact hsender
    · split
      · exact hsender
      · exact hsender

/-- Nor does writing a frame. -/
theorem summaries_writeChunk (w : Writer) (plaintext : Bytes) (tag : Tag) :
    (w.writeChunk plaintext tag).events.filter Event.isSummary = [] := by
  have hpush := w.stream.summaries_push plaintext tag []
  rw [writeChunk]
  split
  · exact hpush
  · dsimp only
    split
    · exact hpush
    · split
      · exact hpush
      · exact hpush

/-- Nor does finishing. -/
theorem summaries_finish (w : Writer) (trailer : Bytes) :
    (w.finish trailer).events.filter Event.isSummary = [] := by
  have hwrite := w.summaries_writeChunk trailer .final
  rw [finish]
  split
  · exact hwrite
  · rw [Outcome.events_after, List.filter_append, hwrite]
    rfl

end Frame.Writer

namespace Pipe

open AeadStream.Frame

variable {ρ : Type} [Entropy ρ] {random : ρ} {ends : Ends} {key : SessionKey} {config : Config}
  {chunkSize : Nat} {plaintext : Bytes}

/-- Nor does writing pieces. -/
theorem summaries_writePieces (size : Nat) (source : Source) (w : Writer) (done : List Bytes) :
    (writePieces size source w done).events.filter Event.isSummary = [] := by
  fun_induction writePieces size source w done with
  | case1 => rfl
  | case2 => rfl
  | case3 source w done b bs => exact w.summaries_writeChunk (b :: bs) .message
  | case4 source w done b bs => exact w.summaries_writeChunk (b :: bs) .message
  | case5 source w done b bs source' hfill written hresult hshort ih =>
    rw [Outcome.events_after, List.filter_append, ih, List.append_nil]
    exact w.summaries_writeChunk (b :: bs) .message

section

variable {source : Source} {w w' : Writer} {events : List Event}

/-- **One summary** is reported, with the counter before the final chunk. -/
theorem Completed.summaries
    (h : Completed ends key random config chunkSize w plaintext source w' events) :
    (encrypt ends key random config chunkSize).events.filter Event.isSummary =
      [.streamEncrypted plaintext.length w'.stream.counter.toNat] := by
  have hdata := summaries_writePieces (max chunkSize 1) ends.source w []
  rw [h.data] at hdata
  rw [h.outcome]
  simp only [List.filter_append, Writer.summaries_start, hdata, Writer.summaries_finish,
    List.nil_append]
  rfl

/-- **Before the final chunk** the stream went through as many chunks of data as the plaintext has
pieces. -/
theorem Completed.reached
    (h : Completed ends key random config chunkSize w plaintext source w' events)
    (hsent : Sent (max chunkSize 1) ends.source w plaintext source w') :
    ∃ header, w'.stream.Reached (.fresh key header config)
      (plaintext.length ⌈/⌉ max chunkSize 1) := by
  obtain ⟨-, header, -, hstream, -⟩ := Writer.gave_of_start h.start
  obtain ⟨-, hreached⟩ := wire_of_reached (pieceAt (max chunkSize 1) plaintext)
    (plaintext.length ⌈/⌉ max chunkSize 1) (.fresh key header config)
  rw [← List.range_eq_range', ← dataFrames_eq_map (max_one_ne_zero chunkSize), ← hstream,
    ← hsent.stream, Nat.zero_add] at hreached
  exact ⟨header, hreached⟩

end

section

variable {epilogue : Epilogue}

/-- **The summary of an encryption** that succeeded: the length of the plaintext that was sent, and
of its chunks those behind the last rotation. -/
theorem summaries_encrypt
    (h : (encrypt ends key random config chunkSize).result = .ok epilogue) :
    ∃ plaintext, ends.source.rest =
        plaintext ++ (encrypt ends key random config chunkSize).state.source.rest ∧
      (encrypt ends key random config chunkSize).events.filter Event.isSummary =
        [.streamEncrypted plaintext.length
          ((plaintext.length ⌈/⌉ max chunkSize 1) % config.ceiling.toNat)] := by
  obtain ⟨w, plaintext, source, w', events, hcompleted, hsent⟩ := completed_of_encrypt h
  obtain ⟨header, -, hcounter⟩ := hcompleted.reached hsent
  refine ⟨plaintext, ?_, ?_⟩
  · rw [hcompleted.outcome]
    exact hsent.rest
  · rw [hcompleted.summaries, hcounter]
    rfl

/-- **A plaintext is summed up** by an encryption of `ends`, under settings that replace the subkey
after every `interval` chunks. -/
structure SummedUp (ends : Ends) (key : SessionKey) (random : ρ) (config : Config)
    (chunkSize interval : Nat) (header : Header) (plaintext : Bytes) : Prop where
  /-- the plaintext is what was read -/
  rest : ends.source.rest =
    plaintext ++ (encrypt ends key random config chunkSize).state.source.rest
  /-- on a healthy source that is everything -/
  whole : ends.source.Healthy → ends.source.rest = plaintext
  /-- what was written are the frames of data and the final one -/
  contents : (encrypt ends key random config chunkSize).state.sink.contents =
    ends.sink.contents ++ (header.bytes ++ wire (.fresh key header config)
      (dataFrames (max chunkSize 1) plaintext ++
        [((Epilogue.ofPlaintext plaintext).encode, .final)]))
  /-- there are as many frames of data as the size allows -/
  count : (dataFrames (max chunkSize 1) plaintext).length =
    plaintext.length ⌈/⌉ max chunkSize 1
  /-- the one summary gives the number of those behind the last rotation -/
  summary : (encrypt ends key random config chunkSize).events.filter Event.isSummary =
    [.streamEncrypted plaintext.length
      ((dataFrames (max chunkSize 1) plaintext).length % interval)]
  /-- so it gives the number of all if and only if they are too few for a rotation -/
  summary_iff : (encrypt ends key random config chunkSize).events.filter Event.isSummary =
      [.streamEncrypted plaintext.length (dataFrames (max chunkSize 1) plaintext).length] ↔
    (dataFrames (max chunkSize 1) plaintext).length < interval

/-- **The chunks that are reported are those of the epoch.** An encryption that succeeds, on any
ends and under any settings, reports one summary. Its number of chunks is that of the frames of data
as long as they are fewer than the chunks per subkey, and otherwise only that of the frames behind
the last rotation. -/
theorem reported_chunks_are_those_of_the_epoch
    (h : (encrypt ends key random config chunkSize).result = .ok epilogue) :
    ∃ header plaintext, epilogue = .ofPlaintext plaintext ∧
      SummedUp ends key random config chunkSize
        (max 1 (min config.rekeyInterval.toNat Config.maxRekeyInterval.toNat)) header
        plaintext := by
  obtain ⟨header, plaintext, -, -, hepilogue, hrest, -, hcontents⟩ := sent_of_encrypt h
  obtain ⟨plaintext', hrest', hsummary⟩ := summaries_encrypt h
  obtain rfl : plaintext' = plaintext := List.append_cancel_right (hrest'.symm.trans hrest)
  have hcount := length_dataFrames (max_one_ne_zero chunkSize) plaintext'
  have hpos : 0 < config.ceiling.toNat := by
    rw [Config.toNat_ceiling]
    omega
  rw [← Config.toNat_ceiling]
  refine ⟨header, plaintext', hepilogue, hrest, fun hsource => ?_, hcontents, hcount, ?_, ?_⟩
  · rw [hrest, rest_of_encrypt (hsource.delivers rfl) h, List.append_nil]
  · rw [hsummary, hcount]
  · rw [hsummary, hcount, List.singleton_inj, Event.streamEncrypted.injEq, and_iff_right rfl,
      Nat.mod_eq_iff_lt (Nat.ne_of_gt hpos)]

/-- Three bytes in pieces of one byte, with room for five chunks before a rotation: all three are
reported. -/
theorem reported_chunks_of_three_bytes :
    (encrypt threeBytes (.zero 32) (Tape.mk (Octets.zero 24).bytes)
        { rekeyInterval := 5, maxChunkLen := 88 } 0).result = .ok (.ofPlaintext [1, 2, 3]) ∧
      (encrypt threeBytes (.zero 32) (Tape.mk (Octets.zero 24).bytes)
        { rekeyInterval := 5, maxChunkLen := 88 } 0).events.filter Event.isSummary =
          [.streamEncrypted 3 3] := by
  have hdraw : (Entropy.draw (Tape.mk (Octets.zero 24).bytes) 24).1 = .ok (Octets.zero 24) := rfl
  have hsource : threeBytes.source.Healthy := ⟨by decide, nofun, rfl⟩
  have hsink : threeBytes.sink.Healthy := ⟨by decide, by decide, rfl, rfl⟩
  have hsuits : Suits 0 { rekeyInterval := 5, maxChunkLen := 88 } [1, 2, 3] :=
    ⟨by decide, by decide, Epilogue.length_encode_ofPlaintext_le _⟩
  obtain ⟨hresult, -⟩ := hsuits.encrypt hdraw (.zero 32) threeBytes (hsource.delivers rfl) hsink
  obtain ⟨header, plaintext, -, hsummed⟩ := reported_chunks_are_those_of_the_epoch hresult
  obtain rfl : [1, 2, 3] = plaintext := hsummed.whole hsource
  have hcount : (dataFrames (max 0 1) ([1, 2, 3] : Bytes)).length = 3 := hsummed.count
  have hsummary := hsummed.summary
  rw [hcount] at hsummary
  exact ⟨hresult, hsummary⟩

/-- **A rotation hides chunks:** of the same three chunks, with room for two before a rotation, all
are written, and one is reported. -/
theorem reported_chunks_miss_two_of_three :
    (encrypt threeBytes (.zero 32) (Tape.mk (Octets.zero 24).bytes)
        { rekeyInterval := 2, maxChunkLen := 88 } 1).result = .ok (.ofPlaintext [1, 2, 3]) ∧
      (encrypt threeBytes (.zero 32) (Tape.mk (Octets.zero 24).bytes)
        { rekeyInterval := 2, maxChunkLen := 88 } 1).state.sink.contents =
          [] ++ ((Octets.zero 24).bytes ++
            wire (.fresh (.zero 32) (.zero 24) { rekeyInterval := 2, maxChunkLen := 88 })
              [([1], .message), ([2], .message), ([3], .message),
                ((Epilogue.ofPlaintext [1, 2, 3]).encode, .final)]) ∧
      [1, 2, 3].length ⌈/⌉ max 1 1 = 3 ∧
      (encrypt threeBytes (.zero 32) (Tape.mk (Octets.zero 24).bytes)
        { rekeyInterval := 2, maxChunkLen := 88 } 1).events.filter Event.isSummary =
          [.streamEncrypted 3 1] := by
  have hdraw : (Entropy.draw (Tape.mk (Octets.zero 24).bytes) 24).1 = .ok (Octets.zero 24) := rfl
  have hsource : threeBytes.source.Healthy := ⟨by decide, nofun, rfl⟩
  have hsink : threeBytes.sink.Healthy := ⟨by decide, by decide, rfl, rfl⟩
  have hsuits : Suits 1 { rekeyInterval := 2, maxChunkLen := 88 } [1, 2, 3] :=
    ⟨by decide, by decide, Epilogue.length_encode_ofPlaintext_le _⟩
  have hframes : allFrames 1 [1, 2, 3] = [([1], .message), ([2], .message), ([3], .message),
      ((Epilogue.ofPlaintext [1, 2, 3]).encode, .final)] := by
    rw [allFrames, dataFrames_eq_map (max_one_ne_zero 1)]
    rfl
  obtain ⟨hresult, hcontents⟩ :=
    hsuits.encrypt hdraw (.zero 32) threeBytes (hsource.delivers rfl) hsink
  obtain ⟨plaintext, hrest, hsummary⟩ := summaries_encrypt hresult
  rw [rest_of_encrypt (hsource.delivers rfl) hresult, List.append_nil] at hrest
  obtain rfl : [1, 2, 3] = plaintext := hrest
  rw [hframes] at hcontents
  exact ⟨hresult, hcontents, rfl, hsummary⟩

end

end Pipe

end AeadStream
