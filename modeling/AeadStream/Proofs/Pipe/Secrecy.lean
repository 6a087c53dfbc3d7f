import AeadStream.Proofs.Epilogue
import AeadStream.Proofs.Pipe.RoundTrip
import AeadStream.Proofs.Stream.Secrecy

/-!
# What encryption shows

Of a plaintext that is encrypted only its length shows, and of the key and the header nothing:
neither in how it goes, nor in the log, nor in the length of what is written. The epilogue is as
long for every plaintext of this length, for a digest is.

* `Sink.Alike`, `Writer.Alike` — two sinks and two writers that cannot be told apart;
* `Writer.Alike.writeChunk`, `Writer.Alike.writePieces` — and stay so;
* `encrypt_alike`, `only_lengths_show` — two encryptions, and two senders that are called.
-/

namespace AeadStream

/-! ## Sinks alike -/

/-- **Sinks alike,** of which one held `old` and the other `old'`: both are healthy, and got the
same number of bytes since. -/
structure Sink.Alike (old old' : Bytes) (s t : Sink) : Prop where
  left : s.Healthy
  right : t.Healthy
  written : ∃ written written' : Bytes, s.contents = old ++ written ∧
    t.contents = old' ++ written' ∧ written.length = written'.length

namespace Sink.Alike

variable {old old' : Bytes} {s t : Sink}

/-- Healthy sinks are alike before anything is written. -/
theorem refl (hs : s.Healthy) (ht : t.Healthy) : Alike s.contents t.contents s t :=
  ⟨hs, ht, [], [], (List.append_nil _).symm, (List.append_nil _).symm, rfl⟩

/-- The same number of bytes is written to both. -/
theorem writeAll (h : Alike old old' s t) {bytes bytes' : Bytes}
    (hlen : bytes.length = bytes'.length) :
    ∃ s' t', s.writeAll bytes = (.ok (), s') ∧ t.writeAll bytes' = (.ok (), t') ∧
      Alike old old' s' t' := by
  obtain ⟨written, written', hs, ht, hwritten⟩ := h.written
  obtain ⟨s', hwrite, hhealthy, hcontents⟩ := h.left.writeAll bytes
  obtain ⟨t', hwrite', hhealthy', hcontents'⟩ := h.right.writeAll bytes'
  refine ⟨s', t', hwrite, hwrite', hhealthy, hhealthy', written ++ bytes, written' ++ bytes',
    ?_, ?_, ?_⟩
  · rw [hcontents, hs, List.append_assoc]
  · rw [hcontents', ht, List.append_assoc]
  · rw [List.length_append, List.length_append, hwritten, hlen]

theorem flush (h : Alike old old' s t) :
    ∃ s' t', s.flush = (.ok (), s') ∧ t.flush = (.ok (), t') ∧ Alike old old' s' t' := by
  obtain ⟨s', hflush, hhealthy, hcontents⟩ := h.left.flush
  obtain ⟨t', hflush', hhealthy', hcontents'⟩ := h.right.flush
  refine ⟨s', t', hflush, hflush', hhealthy, hhealthy', ?_⟩
  rw [hcontents, hcontents']
  exact h.written

end Sink.Alike

namespace Frame

/-! ## Writers alike -/

/-- **Writers alike:** their streams are, and their sinks. -/
structure Writer.Alike (old old' : Bytes) (w v : Writer) : Prop where
  stream : w.stream.Alike v.stream
  sink : Sink.Alike old old' w.sink v.sink

namespace Writer.Alike

variable {old old' : Bytes} {w v : Writer} {plaintext plaintext' : Bytes}

/-- **Writers begin alike** under any two headers, or are refused alike. -/
theorem start {ρ ρ' : Type} [Entropy ρ] [Entropy ρ'] {random : ρ} {random' : ρ'}
    {header header' : Header} (hdraw : (Entropy.draw random 24).1 = .ok header)
    (hdraw' : (Entropy.draw random' 24).1 = .ok header') (key key' : SessionKey)
    (config : Config) {sink sink' : Sink} (h : Sink.Alike old old' sink sink') :
    (Writer.start sink key random config).Alike (Alike old old') (Sink.Alike old old')
      (Writer.start sink' key' random' config) := by
  obtain ⟨hfresh, hevents⟩ := Stream.Alike.fresh hdraw hdraw' key key' config
  rw [Writer.start, Writer.start]
  by_cases hconfig : config.maxChunkLen = 0
  · rw [if_pos hconfig, if_pos hconfig]
    exact .failed h
  · have hlen : header.bytes.length = header'.bytes.length := by
      rw [Octets.length_bytes, Octets.length_bytes]
    obtain ⟨_, _, hwrite, hwrite', hsink⟩ := h.writeAll hlen
    rw [if_neg hconfig, if_neg hconfig]
    simp only [Stream.sender_eq_fresh hdraw, Stream.sender_eq_fresh hdraw', hwrite, hwrite',
      hevents]
    exact .gave ⟨hfresh, hsink⟩ hsink

/-- **Frames of the same length** are written in the same way. -/
theorem writeChunk (h : Alike old old' w v) (hlen : plaintext.length = plaintext'.length)
    (tag : Tag) :
    (w.writeChunk plaintext tag).Alike (fun _ _ => True) (Alike old old')
      (v.writeChunk plaintext' tag) := by
  have hpush := h.stream.push hlen tag [] []
  rw [Writer.writeChunk, Writer.writeChunk]
  generalize w.stream.push plaintext tag [] = o at hpush ⊢
  generalize v.stream.push plaintext' tag [] = p at hpush ⊢
  cases hpush with
  | failed hstream => exact .failed ⟨hstream, h.sink⟩
  | @gave sealed sealed' _ _ _ hsealed hstream =>
    dsimp only
    rw [hsealed, hlen]
    by_cases hsize : UInt32.size ≤ sealed'.length
    · rw [if_pos hsize, if_pos hsize]
      exact .failed ⟨hstream, h.sink⟩
    · obtain ⟨_, _, hfirst, hfirst', hsink⟩ := h.sink.writeAll
        (rfl : (beBytes lengthBytes sealed'.length).length = _)
      obtain ⟨_, _, hsecond, hsecond', hsink⟩ := hsink.writeAll hsealed
      rw [if_neg hsize, if_neg hsize]
      simp only [hfirst, hfirst', hsecond, hsecond']
      exact .gave trivial ⟨hstream, hsink⟩

/-- **Trailers of the same length** are written in the same way. -/
theorem finish (h : Alike old old' w v) (hlen : plaintext.length = plaintext'.length) :
    (w.finish plaintext).Alike (fun _ _ => True) (Alike old old') (v.finish plaintext') := by
  have hwrite := h.writeChunk hlen .final
  rw [Writer.finish, Writer.finish]
  generalize w.writeChunk plaintext .final = o at hwrite ⊢
  generalize v.writeChunk plaintext' .final = p at hwrite ⊢
  cases hwrite with
  | failed hstates => exact .failed hstates
  | gave _ hstates =>
    obtain ⟨_, _, hflush, hflush', hsink⟩ := hstates.sink.flush
    simp only [flush, hflush, hflush']
    exact .gave trivial ⟨hstates.stream, hsink⟩

end Writer.Alike

end Frame

/-! ## Pieces -/

namespace Pipe

open AeadStream.Frame

variable {old old' : Bytes} {size : Nat}

/-- A piece that cannot be written ends the writing. -/
theorem writePieces_fault {source source' : Source} {w w' : Writer} {done : List Bytes}
    {events : List Event} {fault : IoFault} {piece : Bytes} (hne : piece ≠ [])
    (hfill : source.fill size = (.ok piece, source'))
    (hwrite : w.writeChunk piece .message = ⟨.error fault, w', events⟩) :
    writePieces size source w done = ⟨.error fault, (source', w'), events⟩ := by
  rw [writePieces]
  split
  · next h => rw [hfill] at h; cases h
  · next h => rw [hfill] at h; cases h; exact absurd rfl hne
  · next h =>
    rw [hfill] at h
    cases h
    simp only [hwrite]

/-- **Written alike:** so many pieces of the same lengths through writers that are alike, or the
same fault. -/
def WrittenAlike (old old' : Bytes) (o p : Outcome IoFault (Source × Writer) (List Bytes)) : Prop :=
  o.Alike (fun done done' => done.map List.length = done'.map List.length)
    (fun s t => s.2.Alike old old' t.2) p

/-- A piece is written on both sides, and the writing goes on unless it is short. -/
theorem WrittenAlike.cons {source source₁ source' source₁' : Source} {w w' : Writer}
    {done done' : List Bytes} {piece piece' : Bytes} (hne : piece ≠ [])
    (hlen : piece.length = piece'.length) (hfill : source.fill size = (.ok piece, source₁))
    (hfill' : source'.fill size = (.ok piece', source₁')) (hw : w.Alike old old' w')
    (hdone : done.map List.length = done'.map List.length)
    (hrest : size ≤ piece.length → ∀ {w₁ w₁' : Writer}, w₁.Alike old old' w₁' →
      WrittenAlike old old' (writePieces size source₁ w₁ (piece :: done))
        (writePieces size source₁' w₁' (piece' :: done'))) :
    WrittenAlike old old' (writePieces size source w done)
      (writePieces size source' w' done') := by
  have hne' : piece' ≠ [] := by
    rintro rfl
    exact hne (List.length_eq_zero_iff.mp hlen)
  have hwrite := hw.writeChunk hlen .message
  generalize ho : w.writeChunk piece .message = o at hwrite
  generalize hp : w'.writeChunk piece' .message = p at hwrite
  cases hwrite with
  | failed hw₁ =>
    rw [writePieces_fault hne hfill ho, writePieces_fault hne' hfill' hp]
    exact .failed hw₁
  | gave _ hw₁ =>
    rw [writePieces_cons hne hfill ho, writePieces_cons hne' hfill' hp, ← hlen]
    by_cases hshort : piece.length < size
    · rw [if_pos hshort, if_pos hshort]
      refine .gave ?_ hw₁
      rw [List.map_cons, List.map_cons, hlen, hdone]
    · rw [if_neg hshort, if_neg hshort]
      exact (hrest (Nat.not_lt.mp hshort) hw₁).after _

/-- **Plaintexts of the same length** are written in pieces of the same lengths, or both fail at
the same piece. -/
theorem writePieces_alike (hsize : size ≠ 0) {plaintext : Bytes} :
    ∀ {plaintext' : Bytes}, plaintext.length = plaintext'.length →
      ∀ {source source' : Source} {w w' : Writer} (done done' : List Bytes),
        source.Delivers plaintext none → source'.Delivers plaintext' none →
        w.Alike old old' w' → done.map List.length = done'.map List.length →
        WrittenAlike old old' (writePieces size source w done)
          (writePieces size source' w' done') := by
  induction plaintext using pieces_induction hsize with
  | nil =>
    intro plaintext' hlen source source' w w' done done' hsource hsource' hw hdone
    obtain rfl := List.length_eq_zero_iff.mp hlen.symm
    obtain ⟨source₁, hfill, -⟩ := hsource.fill size
    obtain ⟨source₁', hfill', -⟩ := hsource'.fill size
    rw [List.take_nil] at hfill hfill'
    rw [writePieces_nil hfill, writePieces_nil hfill']
    exact .gave hdone hw
  | short piece hne hshort =>
    intro piece' hlen source source' w w' done done' hsource hsource' hw hdone
    obtain ⟨source₁, hfill, -⟩ := hsource.fill size
    obtain ⟨source₁', hfill', -⟩ := hsource'.fill size
    rw [List.take_of_length_le (Nat.le_of_lt hshort)] at hfill
    rw [List.take_of_length_le (Nat.le_of_lt (hlen ▸ hshort))] at hfill'
    exact .cons hne hlen hfill hfill' hw hdone fun hle => absurd hshort (Nat.not_lt.mpr hle)
  | whole piece left hlen ih =>
    intro plaintext' hlen' source source' w w' done done' hsource hsource' hw hdone
    have hne : piece ≠ [] := mt List.length_eq_zero_iff.mpr (hlen.trans_ne hsize)
    obtain ⟨source₁, hfill, hnext⟩ := hsource.fill size
    obtain ⟨source₁', hfill', hnext'⟩ := hsource'.fill size
    rw [List.take_left' hlen] at hfill
    rw [List.drop_left' hlen] at hnext
    rw [List.length_append] at hlen'
    have hpiece : piece.length = (plaintext'.take size).length := by
      rw [List.length_take]
      omega
    have hleft : left.length = (plaintext'.drop size).length := by
      rw [List.length_drop]
      omega
    refine .cons hne hpiece hfill hfill' hw hdone fun _ _ _ hw₁ => ?_
    refine ih hleft _ _ hnext hnext' hw₁ ?_
    rw [List.map_cons, List.map_cons, hpiece, hdone]

/-! ## Encryption -/

/-- **Encryptions alike** have the same fault, or epilogues for the same number of bytes, and
their sinks are alike. -/
theorem encrypt_alike {ρ ρ' : Type} [Entropy ρ] [Entropy ρ'] {random : ρ} {random' : ρ'}
    {header header' : Header} (hdraw : (Entropy.draw random 24).1 = .ok header)
    (hdraw' : (Entropy.draw random' 24).1 = .ok header') (key key' : SessionKey)
    (config : Config) (chunkSize : Nat) {ends ends' : Ends} (hsource : ends.source.Healthy)
    (hsource' : ends'.source.Healthy)
    (hlen : ends.source.rest.length = ends'.source.rest.length)
    (hsink : Sink.Alike old old' ends.sink ends'.sink) :
    (encrypt ends key random config chunkSize).Alike
      (fun epilogue epilogue' => epilogue.size = epilogue'.size)
      (fun ends ends' => Sink.Alike old old' ends.sink ends'.sink)
      (encrypt ends' key' random' config chunkSize) := by
  have hstart := Writer.Alike.start hdraw hdraw' key key' config hsink
  rw [encrypt, encrypt]
  generalize Writer.start ends.sink key random config = o at hstart ⊢
  generalize Writer.start ends'.sink key' random' config = p at hstart ⊢
  cases hstart with
  | failed hsink => exact .failed hsink
  | @gave w w' _ _ _ hw _ =>
    have hpieces := writePieces_alike (max_one_ne_zero chunkSize) hlen [] []
      (hsource.delivers rfl) (hsource'.delivers rfl) hw rfl
    dsimp only
    generalize writePieces (max chunkSize 1) ends.source w [] = o at hpieces ⊢
    generalize writePieces (max chunkSize 1) ends'.source w' [] = p at hpieces ⊢
    cases hpieces with
    | failed hw => exact .failed hw.sink
    | @gave done done' s t _ hdone hw =>
      obtain ⟨source, w⟩ := s
      obtain ⟨source', w'⟩ := t
      have hwhole : done.reverse.flatten.length = done'.reverse.flatten.length := by
        rw [List.length_flatten, List.length_flatten, List.map_reverse, List.map_reverse, hdone]
      have hepilogue : (Epilogue.ofPlaintext done.reverse.flatten).encode.length =
          (Epilogue.ofPlaintext done'.reverse.flatten).encode.length := by
        rw [Epilogue.length_encode_ofPlaintext, Epilogue.length_encode_ofPlaintext, hwhole]
      have hfinish := hw.finish hepilogue
      dsimp only
      generalize w.finish _ = o at hfinish ⊢
      generalize w'.finish _ = p at hfinish ⊢
      cases hfinish with
      | failed hw => exact .failed hw.sink
      | gave _ hw' =>
        dsimp only
        rw [hwhole, hw.stream.counter]
        refine .gave ?_ hw'.sink
        rw [Epilogue.ofPlaintext, Epilogue.ofPlaintext, hwhole]

/-- **Only lengths show.** Two senders under any keys and headers with the same settings report the
same and show the same, and so they do behind each of any number of calls, if these are alike: the
same in kind and tag, with plaintexts of the same lengths. The chunks that they emit are of the
same lengths, and calls that fail do so with the same fault. Two plaintexts of the same length are
encrypted alike: with the same reports, with the same fault if there is one, and into the same
number of bytes. -/
theorem only_lengths_show {ρ ρ' : Type} [Entropy ρ] [Entropy ρ'] {random : ρ} {random' : ρ'}
    {header header' : Header} (hdraw : (Entropy.draw random 24).1 = .ok header)
    (hdraw' : (Entropy.draw random' 24).1 = .ok header') (key key' : SessionKey)
    (config : Config) :
    ((Stream.sender key random config).result = .ok (header, .fresh key header config) ∧
      (Stream.sender key' random' config).result = .ok (header', .fresh key' header' config) ∧
      (Stream.sender key random config).events = (Stream.sender key' random' config).events ∧
      (Stream.fresh key header config).shown = (Stream.fresh key' header' config).shown ∧
      ∀ calls calls' : List SenderCall, List.Forall₂ SenderCall.Alike calls calls' →
        (Course.outcomes SenderCall.on (.fresh key header config) calls).map SenderCall.sight =
          (Course.outcomes SenderCall.on (.fresh key' header' config) calls').map
            SenderCall.sight) ∧
    ∀ (chunkSize : Nat) (ends ends' : Ends), ends.source.Healthy → ends'.source.Healthy →
      ends.sink.Healthy → ends'.sink.Healthy →
      ends.source.rest.length = ends'.source.rest.length →
      (encrypt ends key random config chunkSize).result.map Epilogue.size =
          (encrypt ends' key' random' config chunkSize).result.map Epilogue.size ∧
        (encrypt ends key random config chunkSize).events =
          (encrypt ends' key' random' config chunkSize).events ∧
        ∃ written written' : Bytes,
          (encrypt ends key random config chunkSize).state.sink.contents =
            ends.sink.contents ++ written ∧
          (encrypt ends' key' random' config chunkSize).state.sink.contents =
            ends'.sink.contents ++ written' ∧
          written.length = written'.length := by
  constructor
  · obtain ⟨hfresh, hevents⟩ := Stream.Alike.fresh hdraw hdraw' key key' config
    exact ⟨Stream.sender_eq_fresh hdraw key config, Stream.sender_eq_fresh hdraw' key' config,
      hevents, hfresh.shown_eq, fun _ _ hcalls => hfresh.map_sight hcalls⟩
  · intro chunkSize ends ends' hsource hsource' hsink hsink' hlen
    have halike := encrypt_alike hdraw hdraw' key key' config chunkSize hsource hsource' hlen
      (.refl hsink hsink')
    exact ⟨halike.result_map id, halike.events, halike.state.written⟩

/-- Two senders under different keys and headers push different bytes, and two sources hold
different bytes. -/
theorem only_lengths_show_of_three_bytes :
    (Entropy.draw (Tape.mk (Octets.zero 24).bytes) 24).1 = .ok (Octets.zero 24) ∧
      (Entropy.draw (Tape.mk (List.replicate 24 7)) 24).1 = .ok ⟨List.replicate 24 7, rfl⟩ ∧
      List.Forall₂ SenderCall.Alike [.push [1, 2] .rekey [], .rekey, .finalize [] []]
        [.push [3, 4] .rekey [5], .rekey, .finalize [] [6]] ∧
      threeBytes.source.Healthy ∧ (Source.ofBytes [4, 5, 6]).Healthy ∧
      threeBytes.sink.Healthy ∧ Sink.Healthy {} ∧
      (Course.outcomes SenderCall.on (.fresh (.zero 32) (.zero 24) {})
          [.push [1, 2] .rekey [], .rekey, .finalize [] []]).map SenderCall.sight =
        (Course.outcomes SenderCall.on
          (.fresh ⟨List.replicate 32 9, rfl⟩ ⟨List.replicate 24 7, rfl⟩ {})
          [.push [3, 4] .rekey [5], .rekey, .finalize [] [6]]).map SenderCall.sight ∧
      (encrypt threeBytes (.zero 32) (Tape.mk (Octets.zero 24).bytes) {} 2).events =
        (encrypt ⟨.ofBytes [4, 5, 6], {}⟩ ⟨List.replicate 32 9, rfl⟩
          (Tape.mk (List.replicate 24 7)) {} 2).events := by
  have hdraw : (Entropy.draw (Tape.mk (Octets.zero 24).bytes) 24).1 = .ok (Octets.zero 24) := rfl
  have hdraw' : (Entropy.draw (Tape.mk (List.replicate 24 7)) 24).1 =
    .ok ⟨List.replicate 24 7, rfl⟩ := rfl
  have hcalls : List.Forall₂ SenderCall.Alike [.push [1, 2] .rekey [], .rekey, .finalize [] []]
      [.push [3, 4] .rekey [5], .rekey, .finalize [] [6]] :=
    .cons (.push (by decide) .rekey [] [5])
      (.cons .rekey (.cons (.finalize (by decide) [] [6]) .nil))
  have hsource : threeBytes.source.Healthy := ⟨by decide, nofun, rfl⟩
  have hsource' := Source.healthy_ofBytes [4, 5, 6]
  have hsink : threeBytes.sink.Healthy := ⟨by decide, by decide, rfl, rfl⟩
  obtain ⟨⟨-, -, -, -, hsender⟩, hencrypt⟩ :=
    only_lengths_show hdraw hdraw' (.zero 32) ⟨List.replicate 32 9, rfl⟩ {}
  obtain ⟨-, hevents, -⟩ := hencrypt 2 threeBytes ⟨.ofBytes [4, 5, 6], {}⟩ hsource hsource' hsink
    Sink.healthy_empty rfl
  exact ⟨hdraw, hdraw', hcalls, hsource, hsource', hsink, Sink.healthy_empty,
    hsender _ _ hcalls, hevents⟩

end Pipe

end AeadStream
