import AeadStream.Bytes.Lemmas
import AeadStream.Proofs.Course
import AeadStream.Proofs.Frame.Limits
import AeadStream.Proofs.Sink
import AeadStream.Proofs.Source

/-!
# The wire

The frames of a stream have one form on the wire, `wire`. What a writer puts there and what a
reader takes from there is said here for one frame, and then for any number of them.

* `Writer.writeChunk_of_fits`, `Writer.course_writes` — a writer puts the wire of its frames;
* `Writer.gave_of_writeChunk`, `Writer.course_gave` — a writer put the wire of its frames;
* `Reader.took_of_readChunk`, `Reader.course_took` — a reader took the wire of its frames;
* `Reader.Ahead.readChunk`, `Reader.course_reads` — a reader takes frames that are there.
-/

namespace AeadStream.Frame

variable {plaintext : Bytes} {tag : Tag} {frames : List (Bytes × Tag)}

/-! ## Frames and their wire -/

/-- **The wire** of frames from this place of a stream on. -/
def wire (s : Stream) : List (Bytes × Tag) → Bytes
  | [] => []
  | (plaintext, tag) :: frames =>
    ofSealed (s.chunk plaintext tag []) ++ wire (s.advance tag).1 frames

/-- **A plaintext fits** into a frame here: the stream did not end, and the limit of the stream
and the four bytes of the length allow it. -/
structure Fits (s : Stream) (plaintext : Bytes) : Prop where
  streaming : s.phase = .streaming
  le_limit : plaintext.length ≤ s.maxChunkLen.toNat
  lt_size : plaintext.length + chunkOverhead < UInt32.size

/-- **Frames that fit,** one after the other. -/
inductive AllFit : Stream → List (Bytes × Tag) → Prop
  | nil {s : Stream} : AllFit s []
  | cons {s : Stream} {plaintext : Bytes} {tag : Tag} {frames : List (Bytes × Tag)}
      (hfits : Fits s plaintext) (hrest : AllFit (s.advance tag).1 frames) :
      AllFit s ((plaintext, tag) :: frames)

/-- **The stream behind** frames that went through. -/
def behind (s : Stream) : List (Bytes × Tag) → Stream
  | [] => s
  | (_, tag) :: frames => behind (s.advance tag).1 frames

@[simp] theorem length_ofSealed (sealed : Bytes) :
    (ofSealed sealed).length = lengthBytes + sealed.length := by
  simp [ofSealed]

/-- A wire is as long as all its plaintexts, with four bytes for the length and seventeen around
the plaintext in each frame. -/
theorem length_wire (s : Stream) (frames : List (Bytes × Tag)) :
    (wire s frames).length =
      frames.length * (lengthBytes + chunkOverhead) + (frames.flatMap Prod.fst).length := by
  induction frames generalizing s with
  | nil => rfl
  | cons f fs ih =>
    rw [wire, List.length_append, length_ofSealed, Stream.length_chunk, ih, List.length_cons,
      List.flatMap_cons, List.length_append, Nat.succ_mul]
    omega

theorem wire_append (s : Stream) (front back : List (Bytes × Tag)) :
    wire s (front ++ back) = wire s front ++ wire (behind s front) back := by
  induction front generalizing s with
  | nil => rfl
  | cons f fs ih => rw [List.cons_append, wire, ih, wire, behind, List.append_assoc]

theorem behind_append (s : Stream) (front back : List (Bytes × Tag)) :
    behind s (front ++ back) = behind (behind s front) back := by
  induction front generalizing s with
  | nil => rfl
  | cons f fs ih => exact ih _

@[simp] theorem maxChunkLen_behind (s : Stream) (frames : List (Bytes × Tag)) :
    (behind s frames).maxChunkLen = s.maxChunkLen := by
  induction frames generalizing s with
  | nil => rfl
  | cons f fs ih => rw [behind, ih, Stream.maxChunkLen_advance]

/-- A stream ends at a final frame only. -/
theorem phase_behind (s : Stream) (hdata : ∀ f ∈ frames, f.2 ≠ .final) :
    (behind s frames).phase = s.phase := by
  induction frames generalizing s with
  | nil => rfl
  | cons f fs ih =>
    obtain ⟨hfirst, hlater⟩ := List.forall_mem_cons.mp hdata
    rw [behind, ih _ hlater, Stream.phase_advance hfirst]

theorem allFit_append {s : Stream} {front back : List (Bytes × Tag)} :
    AllFit s (front ++ back) ↔ AllFit s front ∧ AllFit (behind s front) back := by
  induction front generalizing s with
  | nil => exact ⟨fun h => ⟨.nil, h⟩, fun h => h.2⟩
  | cons f fs ih =>
    constructor
    · rintro (_ | ⟨hfits, hrest⟩)
      exact ⟨.cons hfits (ih.mp hrest).1, (ih.mp hrest).2⟩
    · rintro ⟨_ | ⟨hfits, hrest⟩, hback⟩
      exact .cons hfits (ih.mpr ⟨hrest, hback⟩)

/-- Frames of data fit, one after the other, if each is within the limits. -/
theorem allFit_of_le {s : Stream} (hphase : s.phase = .streaming)
    (hdata : ∀ f ∈ frames, f.2 ≠ .final)
    (hle : ∀ f ∈ frames, f.1.length ≤ s.maxChunkLen.toNat ∧
      f.1.length + chunkOverhead < UInt32.size) : AllFit s frames := by
  induction frames generalizing s with
  | nil => exact .nil
  | cons f fs ih =>
    obtain ⟨hfirst, hlater⟩ := List.forall_mem_cons.mp hdata
    obtain ⟨hsize, hsizes⟩ := List.forall_mem_cons.mp hle
    refine .cons ⟨hphase, hsize.1, hsize.2⟩ (ih ?_ hlater ?_)
    · rw [Stream.phase_advance hfirst, hphase]
    · rwa [Stream.maxChunkLen_advance]

/-- Frames of data fit with a final one behind them, if each is within the limits. -/
theorem allFit_whole {s : Stream} {trailer : Bytes} (hphase : s.phase = .streaming)
    (hdata : ∀ f ∈ frames, f.2 ≠ .final)
    (hle : ∀ f ∈ frames, f.1.length ≤ s.maxChunkLen.toNat ∧
      f.1.length + chunkOverhead < UInt32.size)
    (htrailer : trailer.length ≤ s.maxChunkLen.toNat ∧
      trailer.length + chunkOverhead < UInt32.size) :
    AllFit s (frames ++ [(trailer, .final)]) := by
  refine allFit_append.mpr ⟨allFit_of_le hphase hdata hle, .cons ⟨?_, ?_, htrailer.2⟩ .nil⟩
  · rw [phase_behind s hdata, hphase]
  · rw [maxChunkLen_behind]
    exact htrailer.1

/-- The length of each frame fits into its four bytes. -/
theorem AllFit.lt_size {s : Stream} (h : AllFit s frames) :
    ∀ f ∈ frames, f.1.length + chunkOverhead < UInt32.size := by
  induction h with
  | nil => exact fun f hf => absurd hf List.not_mem_nil
  | cons hfits _ ih => exact List.forall_mem_cons.mpr ⟨hfits.lt_size, ih⟩

/-- The chunk of a plaintext that fits is one that the receiver takes. -/
theorem Fits.le_sealedLimit {s : Stream} (h : Fits s plaintext) :
    plaintext.length + chunkOverhead ≤ s.sealedLimit := by
  have hlt := h.lt_size
  have hsize : UInt32.size < UInt64.size := by decide
  exact Stream.le_sealedLimit_iff.mpr ⟨h.le_limit, by omega⟩

/-! ## Writing -/

namespace Writer

/-- **A writer begins** with the stream under the header that it drew, and writes the header. -/
theorem start_of_draw {ρ : Type} [Entropy ρ] {random : ρ} {header : Header} {config : Config}
    (hdraw : (Entropy.draw random 24).1 = .ok header) (hconfig : config.maxChunkLen ≠ 0)
    {sink : Sink} (hsink : sink.Healthy) (key : SessionKey) :
    ∃ sink', (start sink key random config).result = .ok (.upon sink' (.fresh key header config)) ∧
      sink'.Healthy ∧ sink'.contents = sink.contents ++ header.bytes := by
  obtain ⟨sink', hwrite, hhealthy, hcontents⟩ := hsink.writeAll header.bytes
  refine ⟨sink', ?_, hhealthy, hcontents⟩
  rw [start, if_neg hconfig]
  simp only [Stream.sender_eq_fresh hdraw, hwrite]
  rfl

/-- Writes a frame. -/
def writeFrame (f : Bytes × Tag) (w : Writer) : Outcome IoFault Writer Unit :=
  w.writeChunk f.1 f.2

/-- **A frame that fits is written,** behind what is in the sink. -/
theorem writeChunk_of_fits {w : Writer} (hsink : w.sink.Healthy) (hfits : Fits w.stream plaintext)
    (tag : Tag) :
    ∃ sink, w.writeChunk plaintext tag =
        ⟨.ok (), { w with stream := (w.stream.advance tag).1, sink }, (w.stream.advance tag).2⟩ ∧
      sink.Healthy ∧
      sink.contents = w.sink.contents ++ ofSealed (w.stream.chunk plaintext tag []) := by
  have hlen := Stream.length_chunk w.stream plaintext tag []
  have hsize : ¬UInt32.size ≤ (w.stream.chunk plaintext tag []).length := by
    rw [hlen]
    exact Nat.not_le.mpr hfits.lt_size
  obtain ⟨sink₁, hlength, hhealthy₁, hcontents₁⟩ :=
    hsink.writeAll (beBytes lengthBytes (w.stream.chunk plaintext tag []).length)
  obtain ⟨sink₂, hchunk, hhealthy₂, hcontents₂⟩ :=
    hhealthy₁.writeAll (w.stream.chunk plaintext tag [])
  refine ⟨sink₂, ?_, hhealthy₂, ?_⟩
  · rw [writeChunk, Stream.push_of_le hfits.streaming hfits.le_limit]
    simp only [if_neg hsize, hlength, hchunk]
  · rw [hcontents₂, hcontents₁, List.append_assoc, ofSealed]

/-- **Frames that fit are written,** one after the other. -/
theorem course_writes {s : Stream} (hfit : AllFit s frames) :
    ∀ w : Writer, w.stream = s → w.sink.Healthy →
      Course.results writeFrame w frames = frames.map (fun _ => .ok ()) ∧
        (Course.state writeFrame w frames).sink.Healthy ∧
        (Course.state writeFrame w frames).sink.contents = w.sink.contents ++ wire s frames := by
  induction hfit with
  | nil =>
    intro w _ hsink
    exact ⟨rfl, hsink, (List.append_nil _).symm⟩
  | @cons s plaintext tag frames hfits _ ih =>
    rintro w rfl hsink
    obtain ⟨sink', hwrite, hhealthy, hcontents⟩ := writeChunk_of_fits hsink hfits tag
    obtain ⟨hresults, hhealthy', hcontents'⟩ :=
      ih { w with stream := (w.stream.advance tag).1, sink := sink' } rfl hhealthy
    rw [Course.results_cons, Course.state_cons, writeFrame, hwrite, List.map_cons]
    refine ⟨congrArg (_ :: ·) hresults, hhealthy', ?_⟩
    rw [hcontents', hcontents, List.append_assoc, wire]

/-- Finishing writes the same bytes as the final frame. -/
theorem finish_of_writeChunk {w : Writer} {trailer : Bytes}
    (hwrite : (w.writeChunk trailer .final).result = .ok ())
    (hsink : (w.writeChunk trailer .final).state.sink.Healthy) :
    (w.finish trailer).result = .ok () ∧
      (w.finish trailer).state.sink.contents =
        (w.writeChunk trailer .final).state.sink.contents := by
  obtain ⟨sink, hflush, -, hcontents⟩ := hsink.flush
  rw [finish]
  simp only [hwrite, flush, hflush, Outcome.result_after, Outcome.state_after]
  exact ⟨trivial, hcontents⟩

/-- A trailer that fits finishes the wire of what was written. -/
theorem finish_of_fits {w : Writer} {trailer : Bytes} (hsink : w.sink.Healthy)
    (hfits : Fits w.stream trailer) :
    (w.finish trailer).result = .ok () ∧
      (w.finish trailer).state.sink.contents =
        w.sink.contents ++ wire w.stream [(trailer, .final)] := by
  obtain ⟨sink, hwrite, hhealthy, hcontents⟩ := writeChunk_of_fits hsink hfits .final
  have hresult : (w.writeChunk trailer .final).result = .ok () := by rw [hwrite]
  obtain ⟨hfinish, hsame⟩ := finish_of_writeChunk hresult (by rw [hwrite]; exact hhealthy)
  refine ⟨hfinish, ?_⟩
  rw [hsame, hwrite, hcontents, wire, wire, List.append_nil]

/-- **A writer began** with the stream under the header that it drew, and wrote the header. -/
theorem gave_of_start {ρ : Type} [Entropy ρ] {random : ρ} {config : Config} {sink : Sink}
    {key : SessionKey} {w : Writer} (h : (start sink key random config).result = .ok w) :
    config.maxChunkLen ≠ 0 ∧ ∃ header : Header, (Entropy.draw random 24).1 = .ok header ∧
      w.stream = .fresh key header config ∧ w.sink.contents = sink.contents ++ header.bytes := by
  rw [start] at h
  split at h
  · cases h
  · next hconfig =>
    refine ⟨hconfig, ?_⟩
    cases hdraw : (Entropy.draw random 24).1 with
    | error reason =>
      simp only [Stream.sender_of_error hdraw] at h
      cases h
    | ok header =>
      simp only [Stream.sender_eq_fresh hdraw] at h
      split at h
      · cases h
      · next sink' hwrite =>
        obtain rfl := Except.ok.inj h
        exact ⟨header, rfl, rfl, Sink.contents_of_writeAll hwrite⟩

/-- **What a writer gave** for a frame. -/
structure Gave (w : Writer) (plaintext : Bytes) (tag : Tag) (w' : Writer) : Prop where
  fits : Fits w.stream plaintext
  contents : w'.sink.contents = w.sink.contents ++ ofSealed (w.stream.chunk plaintext tag [])
  stream : w'.stream = (w.stream.advance tag).1

/-- **A frame that was written** fits and is in the sink, behind what was there. -/
theorem gave_of_writeChunk {w : Writer} (h : (w.writeChunk plaintext tag).result = .ok ()) :
    Gave w plaintext tag (w.writeChunk plaintext tag).state := by
  have hpush := w.stream.pushed plaintext tag []
  rw [writeChunk] at h ⊢
  generalize w.stream.push plaintext tag [] = pushed at h hpush ⊢
  cases hpush with
  | finalized => cases h
  | tooLong => cases h
  | emitted hphase hlen =>
    dsimp only at h ⊢
    by_cases hsize : UInt32.size ≤ (w.stream.chunk plaintext tag []).length
    · rw [if_pos hsize] at h
      cases h
    · rw [if_neg hsize] at h ⊢
      rw [Stream.length_chunk, Nat.not_le] at hsize
      rcases hlength : w.sink.writeAll
        (beBytes lengthBytes (w.stream.chunk plaintext tag []).length) with ⟨_ | _, sink₁⟩
      · rw [hlength] at h
        cases h
      · rcases hchunk : sink₁.writeAll (w.stream.chunk plaintext tag []) with ⟨_ | _, sink₂⟩
        · simp only [hlength, hchunk] at h
          cases h
        · simp only [hchunk]
          refine ⟨⟨hphase, hlen, hsize⟩, ?_, rfl⟩
          rw [Sink.contents_of_writeAll hchunk, Sink.contents_of_writeAll hlength,
            List.append_assoc, ofSealed]

/-- **Frames that were written** fit and are in the sink as their wire. -/
theorem course_gave (frames : List (Bytes × Tag)) :
    ∀ {w : Writer}, Course.results writeFrame w frames = frames.map (fun _ => .ok ()) →
      AllFit w.stream frames ∧
        (Course.state writeFrame w frames).stream = behind w.stream frames ∧
        (Course.state writeFrame w frames).sink.contents =
          w.sink.contents ++ wire w.stream frames := by
  induction frames with
  | nil =>
    intro w _
    exact ⟨.nil, rfl, (List.append_nil _).symm⟩
  | cons f fs ih =>
    obtain ⟨plaintext, tag⟩ := f
    intro w h
    rw [Course.results_cons, List.map_cons] at h
    obtain ⟨hfirst, hlater⟩ := List.cons.inj h
    obtain ⟨hfits, hcontents, hstream⟩ := gave_of_writeChunk hfirst
    obtain ⟨hallFit, hbehind, hwire⟩ := ih hlater
    rw [writeFrame, hstream] at hallFit hbehind hwire
    rw [hcontents] at hwire
    refine ⟨.cons hfits hallFit, hbehind, ?_⟩
    rw [wire, ← List.append_assoc]
    exact hwire

/-- **A stream that was finished** ends with the final frame, which fits. -/
theorem gave_of_finish {w : Writer} {trailer : Bytes} (h : (w.finish trailer).result = .ok ()) :
    Fits w.stream trailer ∧ (w.finish trailer).state.sink.contents =
      w.sink.contents ++ wire w.stream [(trailer, .final)] := by
  rw [finish] at h ⊢
  cases hwrite : (w.writeChunk trailer .final).result with
  | error fault =>
    simp only [hwrite] at h
    cases h
  | ok _ =>
    obtain ⟨hfits, hcontents, -⟩ := gave_of_writeChunk hwrite
    refine ⟨hfits, ?_⟩
    rw [wire, wire, List.append_nil, ← hcontents]
    exact Sink.contents_flush _

/-- **A whole stream that was written:** all its frames fit, and it is in the sink as the header
and the wire of these. -/
theorem gave_whole {ρ : Type} [Entropy ρ] {random : ρ} {config : Config} {sink : Sink}
    {key : SessionKey} {w : Writer} {trailer : Bytes}
    (hstart : (start sink key random config).result = .ok w)
    (hresults : Course.results writeFrame w frames = frames.map (fun _ => .ok ()))
    (hfinish : ((Course.state writeFrame w frames).finish trailer).result = .ok ()) :
    ∃ header : Header, AllFit (.fresh key header config) (frames ++ [(trailer, .final)]) ∧
      ((Course.state writeFrame w frames).finish trailer).state.sink.contents = sink.contents ++
        (header.bytes ++ wire (.fresh key header config) (frames ++ [(trailer, .final)])) := by
  obtain ⟨-, header, -, hstream, hheader⟩ := gave_of_start hstart
  obtain ⟨hfit, hbehind, hcontents⟩ := course_gave frames hresults
  obtain ⟨hlast, hcontents'⟩ := gave_of_finish hfinish
  rw [hbehind, hstream] at hlast
  rw [hstream] at hfit
  refine ⟨header, allFit_append.mpr ⟨hfit, .cons hlast .nil⟩, ?_⟩
  rw [hcontents', hcontents, hbehind, hheader, hstream, wire_append]
  simp only [List.append_assoc]

end Writer

/-! ## Reading -/

namespace Reader

/-- **A reader began** with the stream under the header that it took. -/
theorem took_of_start {source : Source} {key : SessionKey} {config : Config} {r : Reader}
    (h : (start source key config).result = .ok r) :
    ∃ header : Header, source.rest = header.bytes ++ r.source.rest ∧
      r.stream = .fresh key header config := by
  rw [start] at h
  split at h
  · cases h
  · next written source' hread =>
    obtain ⟨hrest, hlen⟩ := Source.readExact_eq_ok hread
    have hstream : Stream.receiver key written config = .ok (.fresh key ⟨written, hlen⟩ config) :=
      Stream.receiver_eq_fresh key ⟨written, hlen⟩ config
    rw [hstream] at h
    obtain rfl := Except.ok.inj h
    exact ⟨⟨written, hlen⟩, hrest, rfl⟩

/-- A reader begins if a header is delivered. -/
theorem start_of_delivers {source : Source} {header : Header} {back : Bytes}
    {ending : Option IoFault} (hsource : source.Delivers (header.bytes ++ back) ending)
    (key : SessionKey) (config : Config) :
    ∃ source', start source key config =
        ⟨.ok (.upon source' (.fresh key header config)), source',
          (Stream.fresh key header config).begun⟩ ∧
      source'.Delivers back ending := by
  obtain ⟨source', hread, hnext⟩ := hsource.readExact
  rw [header.length_bytes] at hread
  refine ⟨source', ?_, hnext⟩
  rw [start, hread]
  simp only [Stream.receiver_eq_fresh]
  rfl

/-- A reader begins if a header is there, on a healthy source. -/
theorem start_of_rest {source : Source} {header : Header} {back : Bytes} (hsource : source.Healthy)
    (hrest : source.rest = header.bytes ++ back) (key : SessionKey) (config : Config) :
    ∃ source', (start source key config).result = .ok (.upon source' (.fresh key header config)) ∧
      source'.Healthy ∧ source'.rest = back := by
  obtain ⟨source', hstart, hnext⟩ := start_of_delivers (hsource.delivers hrest) key config
  exact ⟨source', by rw [hstart], hnext.healthy⟩

/-- A reader does not begin on less than a header. -/
theorem start_of_short {source : Source} {bytes : Bytes} {ending : Option IoFault}
    (hsource : source.Delivers bytes ending) (hlt : bytes.length < 24) (key : SessionKey)
    (config : Config) :
    (start source key config).result = .error (ending.getD .endOfInput) := by
  obtain ⟨source', hread⟩ := hsource.readExact_short hlt
  rw [start, hread]

/-- Reads a frame. -/
def readFrame (_ : Unit) (r : Reader) : Outcome IoFault Reader (Option (Bytes × Tag)) :=
  r.readChunk

/-- **What a reader took** for a frame. -/
structure Took (r : Reader) (plaintext : Bytes) (tag : Tag) (r' : Reader) : Prop where
  fits : Fits r.stream plaintext
  rest : r.source.rest = ofSealed (r.stream.chunk plaintext tag []) ++ r'.source.rest
  stream : r'.stream = (r.stream.advance tag).1

/-- A frame that was read came from two exact reads, and the stream received what the second one
gave. -/
theorem reads_of_readChunk {r : Reader} (h : r.readChunk.result = .ok (some (plaintext, tag))) :
    ∃ written source₁ sealed source₂,
      r.source.readExact lengthBytes = (.ok written, source₁) ∧
      source₁.readExact (natOfBe written) = (.ok sealed, source₂) ∧
      (r.stream.pull sealed []).result = .ok (plaintext, tag) ∧
      r.readChunk.state.source = source₂ ∧
      r.readChunk.state.stream = (r.stream.pull sealed []).state := by
  generalize ho : r.readChunk = o at h ⊢
  rw [readChunk] at ho
  split at ho
  · subst ho
    cases h
  · split at ho
    · subst ho
      cases h
    · next written source₁ hwritten =>
      dsimp only at ho
      split at ho
      · subst ho
        cases h
      · split at ho
        · subst ho
          cases h
        · next sealed source₂ hread =>
          subst ho
          refine ⟨written, source₁, sealed, source₂, hwritten, hread, ?_, rfl, rfl⟩
          cases hresult : (r.stream.pull sealed []).result with
          | error fault =>
            rw [hresult] at h
            cases h
          | ok chunk =>
            rw [hresult] at h
            rw [Option.some.inj (Except.ok.inj h)]

/-- **A frame that was read** was there in its one form. -/
theorem took_of_readChunk {r : Reader} (h : r.readChunk.result = .ok (some (plaintext, tag))) :
    Took r plaintext tag r.readChunk.state := by
  obtain ⟨written, source₁, sealed, source₂, hwritten, hread, hpull, hsource, hstream⟩ :=
    reads_of_readChunk h
  obtain ⟨hrest₁, hlen₁⟩ := Source.readExact_eq_ok hwritten
  obtain ⟨hrest₂, hlen₂⟩ := Source.readExact_eq_ok hread
  obtain ⟨hphase, hlimit, rfl⟩ := Stream.pull_eq_ok_iff.mp hpull
  -- the four bytes of the length are the one way to write it
  have hlength : written = beBytes lengthBytes (r.stream.chunk plaintext tag []).length := by
    rw [hlen₂, ← hlen₁, beBytes_natOfBe]
  have hsize := natOfBe_lt written
  rw [← hlen₂, hlen₁, Stream.length_chunk] at hsize
  rw [Stream.length_chunk] at hlimit
  refine ⟨⟨hphase, (Stream.le_sealedLimit_iff.mp hlimit).1, hsize⟩, ?_, ?_⟩
  · rw [hrest₁, hrest₂, hsource, hlength, ofSealed, List.append_assoc]
  · rw [hstream, Stream.pull_chunk hphase hlimit]

/-- **Frames that were read** were there as their wire. -/
theorem course_took (frames : List (Bytes × Tag)) :
    ∀ {r : Reader}, Course.results readFrame r (List.replicate frames.length ()) =
        frames.map (fun f => .ok (some f)) →
      AllFit r.stream frames ∧
        r.source.rest = wire r.stream frames ++
          (Course.state readFrame r (List.replicate frames.length ())).source.rest ∧
        (Course.state readFrame r (List.replicate frames.length ())).stream =
          behind r.stream frames := by
  induction frames with
  | nil =>
    intro r _
    exact ⟨.nil, rfl, rfl⟩
  | cons f fs ih =>
    obtain ⟨plaintext, tag⟩ := f
    intro r h
    rw [List.length_cons, List.replicate_succ, Course.results_cons, List.map_cons] at h
    obtain ⟨hfirst, hlater⟩ := List.cons.inj h
    obtain ⟨hfits, hrest, hstream⟩ := took_of_readChunk hfirst
    obtain ⟨hallFit, hwire, hbehind⟩ := ih hlater
    rw [readFrame, hstream] at hallFit hwire hbehind
    refine ⟨.cons hfits hallFit, ?_, hbehind⟩
    rw [hrest, hwire, wire, List.append_assoc]
    rfl

/-- A stream that goes on is not finished. -/
theorem not_isFinished {r : Reader} (h : r.stream.phase = .streaming) : ¬r.isFinished = true := by
  rw [isFinished, h]
  decide

/-- The length of a frame that fits reads back, and a stream accepts it. -/
theorem length_of_fits {s : Stream} (hfits : Fits s plaintext) (tag : Tag) :
    natOfBe (beBytes lengthBytes (s.chunk plaintext tag []).length) =
        (s.chunk plaintext tag []).length ∧
      ¬((s.chunk plaintext tag []).length < chunkOverhead ∨
        s.sealedLimit < (s.chunk plaintext tag []).length) := by
  have hlimit := hfits.le_sealedLimit
  rw [natOfBe_beBytes, Stream.length_chunk]
  exact ⟨Nat.mod_eq_of_lt hfits.lt_size, by omega⟩

/-- So does a reader of which the limits agree. -/
theorem LimitsAgree.length_of_fits {r : Reader} (h : r.LimitsAgree)
    (hfits : Fits r.stream plaintext) (tag : Tag) :
    natOfBe (beBytes lengthBytes (r.stream.chunk plaintext tag []).length) =
        (r.stream.chunk plaintext tag []).length ∧
      ¬((r.stream.chunk plaintext tag []).length < chunkOverhead ∨
        r.maxSealedLen < (r.stream.chunk plaintext tag []).length) := by
  rw [h]
  exact Reader.length_of_fits hfits tag

/-- **A frame that fits and is delivered is read.** -/
theorem readChunk_of_fits {r : Reader} {back : Bytes} {ending : Option IoFault}
    (hlimits : r.LimitsAgree)
    (hsource : r.source.Delivers (ofSealed (r.stream.chunk plaintext tag []) ++ back) ending)
    (hfits : Fits r.stream plaintext) :
    ∃ source, r.readChunk = ⟨.ok (some (plaintext, tag)),
        { r with source, stream := (r.stream.advance tag).1 }, (r.stream.advance tag).2⟩ ∧
      source.Delivers back ending := by
  obtain ⟨hsize, hrange⟩ := hlimits.length_of_fits hfits tag
  rw [ofSealed, List.append_assoc] at hsource
  obtain ⟨source₁, hlength, hnext₁⟩ := hsource.readExact
  obtain ⟨source₂, hchunk, hnext₂⟩ := hnext₁.readExact
  rw [length_beBytes] at hlength
  refine ⟨source₂, ?_, hnext₂⟩
  rw [readChunk, if_neg (not_isFinished hfits.streaming)]
  simp only [hlength, hsize, if_neg hrange, hchunk,
    Stream.pull_chunk hfits.streaming hfits.le_sealedLimit]
  rfl

/-- **Frames are ahead** of a reader: they fit, and its source delivers them. -/
structure Ahead (r : Reader) (frames : List (Bytes × Tag)) (back : Bytes)
    (ending : Option IoFault) : Prop where
  limits : r.LimitsAgree
  fits : AllFit r.stream frames
  delivers : r.source.Delivers (wire r.stream frames ++ back) ending

section

variable {r : Reader} {back : Bytes} {ending : Option IoFault}

/-- They are ahead in the beginning. -/
theorem ahead_of_delivers {source : Source} {header : Header} {key : SessionKey} {config : Config}
    (hsource : source.Delivers
      (header.bytes ++ (wire (.fresh key header config) frames ++ back)) ending)
    (hfit : AllFit (.fresh key header config) frames) :
    ∃ source', start source key config =
        ⟨.ok (.upon source' (.fresh key header config)), source',
          (Stream.fresh key header config).begun⟩ ∧
      Ahead (.upon source' (.fresh key header config)) frames back ending := by
  obtain ⟨source', hstart, hnext⟩ := start_of_delivers hsource key config
  exact ⟨source', hstart, limitsAgree_upon .., hfit, hnext⟩

/-- What a reader holds does not matter. -/
theorem Ahead.holding (h : r.Ahead frames back ending) (plaintext : Bytes) :
    (r.holding plaintext).Ahead frames back ending :=
  ⟨h.limits, h.fits, h.delivers⟩

/-- With none of them ahead, there is what is behind them. -/
theorem Ahead.behind (h : r.Ahead [] back ending) : r.source.Delivers back ending := h.delivers

/-- **The first of them is read,** and then the others are ahead. -/
theorem Ahead.readChunk (h : r.Ahead ((plaintext, tag) :: frames) back ending) :
    ∃ r', r.readChunk = ⟨.ok (some (plaintext, tag)), r', (r.stream.advance tag).2⟩ ∧
      r'.stream = (r.stream.advance tag).1 ∧ r'.Ahead frames back ending := by
  obtain ⟨hlimits, _ | ⟨hfits, hrest⟩, hsource⟩ := h
  rw [wire, List.append_assoc] at hsource
  obtain ⟨source, hread, hnext⟩ := readChunk_of_fits hlimits hsource hfits
  exact ⟨_, hread, rfl, hlimits.advance source tag, hrest, hnext⟩

/-- **All of them are read,** one after the other. -/
theorem course_reads (frames : List (Bytes × Tag)) :
    ∀ {r : Reader}, r.Ahead frames back ending →
      Course.results readFrame r (List.replicate frames.length ()) =
          frames.map (fun f => .ok (some f)) ∧
        (Course.state readFrame r (List.replicate frames.length ())).source.Delivers back
          ending := by
  induction frames with
  | nil => exact fun h => ⟨rfl, h.behind⟩
  | cons f frames ih =>
    intro r h
    obtain ⟨r', hread, -, hlater⟩ := h.readChunk
    obtain ⟨hresults, hback⟩ := ih hlater
    rw [List.length_cons, List.replicate_succ, Course.results_cons, Course.state_cons, readFrame,
      hread, List.map_cons]
    exact ⟨congrArg (_ :: ·) hresults, hback⟩

end

end Reader

end AeadStream.Frame
