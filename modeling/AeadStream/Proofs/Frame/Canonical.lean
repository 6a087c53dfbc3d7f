import AeadStream.Proofs.Frame.Wire

/-!
# A reader takes exactly what a writer gives

Frames have one form on the wire, so what a reader took from its source is what a writer under
the same key and settings writes for these frames once it drew the same header. This holds for
hostile bytes as well, and for a source that cuts them into any pieces.

* `Writes` — what every such writer writes;
* `Canonical` — what a reader took is that, and nothing else is read as the same frames;
* `reader_accepts_what_is_written` — each reader's first frames, however many.
-/

namespace AeadStream.Frame

variable {key : SessionKey} {config : Config} {header : Header} {frames : List (Bytes × Tag)}

/-! ## What a writer writes -/

/-- **What a writer writes:** every writer under this key and these settings that draws this
header and is given these frames succeeds, and these are the bytes that it adds to its sink. The
last of the frames may be written by finishing, if it is final. -/
def Writes (key : SessionKey) (config : Config) (header : Header) (frames : List (Bytes × Tag))
    (written : Bytes) : Prop :=
  ∀ {ρ : Type} [Entropy ρ] (random : ρ) (sink : Sink),
    (Entropy.draw random 24).1 = .ok header → sink.Healthy →
    ∃ writer, (Writer.start sink key random config).result = .ok writer ∧
      Course.results Writer.writeFrame writer frames = frames.map (fun _ => .ok ()) ∧
      (Course.state Writer.writeFrame writer frames).sink.contents = sink.contents ++ written ∧
      ∀ front trailer, frames = front ++ [(trailer, .final)] →
        Course.results Writer.writeFrame writer front = front.map (fun _ => .ok ()) ∧
        ((Course.state Writer.writeFrame writer front).finish trailer).result = .ok () ∧
        ((Course.state Writer.writeFrame writer front).finish trailer).state.sink.contents =
          sink.contents ++ written

/-- A writer writes the header and the wire of its frames, if these fit. -/
theorem writes_wire (hconfig : config.maxChunkLen ≠ 0)
    (hfit : AllFit (.fresh key header config) frames) :
    Writes key config header frames (header.bytes ++ wire (.fresh key header config) frames) := by
  intro ρ _ random sink hdraw hsink
  obtain ⟨begun, hstart, hhealthy, hcontents⟩ := Writer.start_of_draw hdraw hconfig hsink key
  obtain ⟨hresults, hhealthy', hcontents'⟩ :=
    Writer.course_writes hfit (.upon begun (.fresh key header config)) rfl hhealthy
  rw [Writer.sink_upon, hcontents, List.append_assoc] at hcontents'
  refine ⟨.upon begun (.fresh key header config), hstart, hresults, hcontents', ?_⟩
  rintro front trailer rfl
  -- finishing is the last call of the course, followed by a flush
  rw [Course.results_append, List.map_append] at hresults
  rw [Course.state_append] at hhealthy' hcontents'
  obtain ⟨hfront, hlast⟩ := List.append_inj hresults (by simp)
  obtain ⟨hfinish, hsame⟩ := Writer.finish_of_writeChunk (List.cons.inj hlast).1 hhealthy'
  exact ⟨hfront, hfinish, hsame.trans hcontents'⟩

/-- What a writer under this key and these settings writes is the header and the wire of its
frames, and these fit. -/
theorem writes_iff {written : Bytes} :
    Writes key config header frames written ↔ config.maxChunkLen ≠ 0 ∧
      AllFit (.fresh key header config) frames ∧
        written = header.bytes ++ wire (.fresh key header config) frames := by
  constructor
  · intro h
    -- the header may be drawn from a tape, and written to an empty sink
    have hdraw : (Entropy.draw (Tape.mk header.bytes) 24).1 = .ok header := by
      simp [Entropy.draw, Tape.draw, List.take_of_length_le]
    obtain ⟨writer, hstart, hresults, hcontents, -⟩ :=
      h (Tape.mk header.bytes) {} hdraw Sink.healthy_empty
    obtain ⟨hconfig, header', hdraw', hstream, hheader⟩ := Writer.gave_of_start hstart
    obtain rfl := Except.ok.inj (hdraw'.symm.trans hdraw)
    obtain ⟨hfit, -, hwire⟩ := Writer.course_gave frames hresults
    rw [hstream] at hfit hwire
    rw [hcontents, hheader, List.append_assoc] at hwire
    exact ⟨hconfig, hfit, List.append_cancel_left hwire⟩
  · rintro ⟨hconfig, hfit, rfl⟩
    exact writes_wire hconfig hfit

/-! ## What a reader took -/

/-- **A canonical reading:** the bytes that were taken from the source, with what they are. -/
structure Canonical (key : SessionKey) (config : Config) (source : Source)
    (frames : List (Bytes × Tag)) (left : Bytes) (header : Header) (taken : Bytes) : Prop where
  /-- they are the first bytes of the source, and the header comes first -/
  rest_eq : source.rest = taken ++ left
  header_eq : header.bytes = source.rest.take 24
  /-- nothing is taken beyond the header and the frames -/
  length_eq : taken.length =
    24 + (frames.length * (lengthBytes + chunkOverhead) + (frames.flatMap Prod.fst).length)
  /-- they are what a writer writes -/
  writes : Writes key config header frames taken
  /-- a reader that takes other bytes gets another header or other frames -/
  unique : ∀ (source' : Source) (reader' : Reader),
    (Reader.start source' key config).result = .ok reader' →
    source'.rest.take 24 = header.bytes →
    Course.results Reader.readFrame reader' (List.replicate frames.length ()) =
      frames.map (fun f => .ok (some f)) →
    source'.rest = taken ++
      (Course.state Reader.readFrame reader' (List.replicate frames.length ())).source.rest

/-- The bytes that were taken are the header and the wire of the frames. -/
theorem taken_eq {source : Source} {reader : Reader}
    (hstart : (Reader.start source key config).result = .ok reader)
    (hread : Course.results Reader.readFrame reader (List.replicate frames.length ()) =
      frames.map fun f => .ok (some f)) :
    ∃ header : Header, header.bytes = source.rest.take 24 ∧
      AllFit (.fresh key header config) frames ∧
      source.rest = header.bytes ++ wire (.fresh key header config) frames ++
        (Course.state Reader.readFrame reader (List.replicate frames.length ())).source.rest := by
  obtain ⟨header, hrest, hstream⟩ := Reader.took_of_start hstart
  obtain ⟨hfit, hwire, -⟩ := Reader.course_took frames hread
  rw [hstream] at hfit hwire
  refine ⟨header, ?_, hfit, ?_⟩
  · rw [hrest, List.take_left' header.length_bytes]
  · rw [hrest, List.append_assoc]
    exact congrArg (header.bytes ++ ·) hwire

/-- **A reader takes exactly what a writer gives.** Whatever a source holds and however it gives
it, if a reader begins on it and its first calls give these frames, then the bytes that were taken
are those that a writer under the same key and settings writes for the frames once it drew the
header that stands in front. No other bytes are read as this header and these frames, and none
beyond the last frame are taken. -/
theorem reader_accepts_what_is_written {source : Source} {reader : Reader}
    (hconfig : config.maxChunkLen ≠ 0)
    (hstart : (Reader.start source key config).result = .ok reader)
    (hread : Course.results Reader.readFrame reader (List.replicate frames.length ()) =
      frames.map fun f => .ok (some f)) :
    ∃ header taken, Canonical key config source frames
      (Course.state Reader.readFrame reader (List.replicate frames.length ())).source.rest
      header taken := by
  obtain ⟨header, hheader, hfit, hrest⟩ := taken_eq hstart hread
  refine ⟨header, header.bytes ++ wire (.fresh key header config) frames, hrest, hheader, ?_,
    writes_wire hconfig hfit, ?_⟩
  · rw [List.length_append, header.length_bytes, length_wire]
  · intro source' reader' hstart' hsame hread'
    -- the header fixes the stream, and the stream fixes the wire of the frames
    obtain ⟨header', hheader', -, hrest'⟩ := taken_eq hstart' hread'
    obtain rfl : header' = header := Octets.ext (hheader'.trans hsame)
    exact hrest'

/-- A source that is interrupted and then gives three bytes holds two frames and one byte more. -/
theorem reader_accepts_what_is_written_in_pieces :
    ∃ reader : Reader,
      ({} : Config).maxChunkLen ≠ 0 ∧
      (Reader.start
        { rest := (Octets.zero 24).bytes ++
            (wire (.fresh (.zero 32) (.zero 24) {}) [([1], .message), ([2], .final)] ++ [7])
          turns := [.interrupt, .upTo 3] } (.zero 32) {}).result = .ok reader ∧
      Course.results Reader.readFrame reader [(), ()] =
        [.ok (some ([1], .message)), .ok (some ([2], .final))] ∧
      ∃ header taken, Canonical (.zero 32) {}
        { rest := (Octets.zero 24).bytes ++
            (wire (.fresh (.zero 32) (.zero 24) {}) [([1], .message), ([2], .final)] ++ [7])
          turns := [.interrupt, .upTo 3] }
        [([1], .message), ([2], .final)]
        (Course.state Reader.readFrame reader [(), ()]).source.rest header taken := by
  have hfit : AllFit (.fresh (.zero 32) (.zero 24) {}) [([1], .message), ([2], .final)] := by
    refine .cons ⟨rfl, by decide, by decide⟩ (.cons ⟨?_, ?_, by decide⟩ .nil)
    · exact Stream.phase_advance nofun
    · rw [Stream.maxChunkLen_advance]
      decide
  have hsource : Source.Healthy
      { rest := (Octets.zero 24).bytes ++
          (wire (.fresh (.zero 32) (.zero 24) {}) [([1], .message), ([2], .final)] ++ [7])
        turns := [.interrupt, .upTo 3] } := ⟨by decide, nofun, rfl⟩
  obtain ⟨source, hbegun, hahead⟩ := Reader.ahead_of_delivers (hsource.delivers rfl) hfit
  obtain ⟨hread, -⟩ := Reader.course_reads _ hahead
  have hstart := congrArg Outcome.result hbegun
  exact ⟨_, by decide, hstart, hread, reader_accepts_what_is_written (by decide) hstart hread⟩

end AeadStream.Frame
