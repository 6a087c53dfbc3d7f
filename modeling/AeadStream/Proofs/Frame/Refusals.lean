import AeadStream.Proofs.Frame.Emission
import AeadStream.Proofs.Frame.RoundTrip

/-!
# What a writer refuses

A writer refuses data behind the end of its stream and data beyond its limit, and then it is as if
they had not been offered. Data within the limit may still be too long for any frame, if the limit
is that large. These are refused as well, but only after the stream moved on.

* `Writer.Declined`, `Writer.declined` — how the stream can refuse data;
* `Writer.writeChunk_of_oversized` — data too long for any frame, by their length;
* `Writer.course_kept` — the frames that were kept in a course;
* `refused_writes_leave_no_trace` — a refusal, and what a reader recovers.
-/

namespace AeadStream

/-- **A sink with faults of its own:** it does not fail with those of a stream. -/
def Sink.OwnFaults (s : Sink) : Prop := ∀ fault, s.full ≠ some (.stream fault)

namespace Sink.OwnFaults

variable {s : Sink}

theorem writeAll (h : s.OwnFaults) (bytes : Bytes) : (s.writeAll bytes).2.OwnFaults := by
  intro fault
  rw [full_writeAll]
  exact h fault

/-- Writing to such a sink does not fail with a fault of a stream. -/
theorem ne_stream (h : s.OwnFaults) {bytes : Bytes} {s' : Sink} (fault : StreamFault) :
    s.writeAll bytes ≠ (.error (.stream fault), s') := by
  intro hwrite
  rcases fault_of_writeAll hwrite with hzero | hfull
  · cases hzero
  · exact h fault hfull

end Sink.OwnFaults

namespace Frame

namespace Writer

variable {w : Writer} {data : Bytes} {tag : Tag} {fault : StreamFault}
  {frames : List (Bytes × Tag)}

/-! ## Single refusals -/

/-- **Data too long for any frame,** though within the limit of a stream that goes on. -/
def Oversized (w : Writer) (data : Bytes) : Prop :=
  w.stream.phase = .streaming ∧ data.length ≤ w.stream.maxChunkLen.toNat ∧
    UInt32.size ≤ data.length + chunkOverhead

/-- **How the stream can refuse** data. -/
inductive Declined (w : Writer) (data : Bytes) (tag : Tag) : Outcome IoFault Writer Unit → Prop
  /-- it is at its end, and nothing changes -/
  | finalized (hphase : w.stream.phase = .finalized) :
      Declined w data tag ⟨.error (.stream (.wrongPhase .finalized "push")), w, []⟩
  /-- the data are beyond its limit, and nothing changes -/
  | tooLong (hphase : w.stream.phase = .streaming)
      (hlt : w.stream.maxChunkLen.toNat < data.length) :
      Declined w data tag
        ⟨.error (.stream (.tooLong data.length w.stream.maxChunkLen.toNat)), w, []⟩
  /-- no frame holds the data, and the stream moves on without one -/
  | oversized (hdata : w.Oversized data) :
      Declined w data tag
        ⟨.error (.stream (.tooLong data.length (UInt32.size - 1 - chunkOverhead))),
          { w with stream := (w.stream.advance tag).1 }, (w.stream.advance tag).2⟩

/-- **The stream refuses** data in one of these ways. -/
theorem declined (hsink : w.sink.OwnFaults)
    (h : (w.writeChunk data tag).result = .error (.stream fault)) :
    Declined w data tag (w.writeChunk data tag) := by
  have hpush := w.stream.pushed data tag []
  rw [writeChunk] at h ⊢
  generalize w.stream.push data tag [] = pushed at h hpush ⊢
  cases hpush with
  | finalized hphase => exact .finalized hphase
  | tooLong hphase hlt => exact .tooLong hphase hlt
  | emitted hphase hle =>
    dsimp only at h ⊢
    by_cases hsize : UInt32.size ≤ (w.stream.chunk data tag []).length
    · rw [if_pos hsize]
      rw [Stream.length_chunk] at hsize
      exact .oversized ⟨hphase, hle, hsize⟩
    · -- only the sink is left to fail, and it has faults of its own
      rw [if_neg hsize] at h
      rcases hlength : w.sink.writeAll
        (beBytes lengthBytes (w.stream.chunk data tag []).length) with ⟨own | _, sink₁⟩
      · rw [hlength] at h
        obtain rfl := Except.error.inj h
        exact absurd hlength (hsink.ne_stream fault)
      · have hsink₁ := hsink.writeAll (beBytes lengthBytes (w.stream.chunk data tag []).length)
        rw [hlength] at h hsink₁
        rcases hchunk : sink₁.writeAll (w.stream.chunk data tag []) with ⟨own | _, sink₂⟩
        · simp only [hchunk] at h
          obtain rfl := Except.error.inj h
          exact absurd hchunk (hsink₁.ne_stream fault)
        · simp only [hchunk] at h
          cases h

/-- **A refusal changes nothing,** unless the data are too long for any frame. -/
theorem writeChunk_of_declined (hsink : w.sink.OwnFaults)
    (h : (w.writeChunk data tag).result = .error (.stream fault)) (hdata : ¬w.Oversized data) :
    w.writeChunk data tag = ⟨.error (.stream fault), w, []⟩ := by
  have hdeclined := declined hsink h
  generalize w.writeChunk data tag = o at h hdeclined
  cases hdeclined with
  | finalized => rw [← h]
  | tooLong => rw [← h]
  | oversized hover => exact absurd hover hdata

/-- **Data too long for any frame** are refused by their length, whatever they are. -/
theorem writeChunk_of_oversized (h : UInt32.size ≤ data.length + chunkOverhead) (tag : Tag) :
    w.writeChunk data tag = w.writeOversized data.length tag := by
  have hpush := w.stream.pushed data tag []
  rw [writeChunk, writeOversized]
  generalize w.stream.push data tag [] = pushed at hpush
  cases hpush with
  | finalized hphase =>
    rw [hphase]
  | tooLong hphase hlt =>
    rw [hphase]
    simp only [if_pos hlt]
  | emitted hphase hle =>
    have hsize : UInt32.size ≤ (w.stream.chunk data tag []).length := by
      rwa [Stream.length_chunk]
    rw [hphase]
    simp only [if_pos hsize, if_neg (Nat.not_lt.mpr hle)]

/-! ## Courses with refusals -/

/-- Writing keeps a sink one with faults of its own. -/
theorem ownFaults_writeChunk (h : w.sink.OwnFaults) (data : Bytes) (tag : Tag) :
    (w.writeChunk data tag).state.sink.OwnFaults := by
  intro fault
  rw [full_writeChunk]
  exact h fault

/-- So does starting. -/
theorem ownFaults_of_start {ρ : Type} [Entropy ρ] {random : ρ} {config : Config} {sink : Sink}
    {key : SessionKey} (hsink : sink.OwnFaults)
    (h : (start sink key random config).result = .ok w) : w.sink.OwnFaults := by
  rw [start] at h
  split at h
  · cases h
  · dsimp only at h
    split at h
    · cases h
    · next header stream hsender =>
      have hheader := hsink.writeAll header.bytes
      split at h
      · cases h
      · next hwrite =>
        rw [hwrite] at hheader
        obtain rfl := Except.ok.inj h
        exact hheader

/-- **The frames that were kept:** those of which the writing succeeded. -/
def kept (w : Writer) (frames : List (Bytes × Tag)) : List (Bytes × Tag) :=
  (frames.zip (Course.results writeFrame w frames)).filterMap fun (f, result) =>
    match result with
    | .ok () => some f
    | .error _ => none

theorem kept_cons_of_ok {f : Bytes × Tag} (h : (writeFrame f w).result = .ok ()) :
    w.kept (f :: frames) = f :: (writeFrame f w).state.kept frames := by
  simp only [kept, Course.results_cons, List.zip_cons_cons, List.filterMap_cons, h]

theorem kept_cons_of_error {f : Bytes × Tag} {own : IoFault}
    (h : (writeFrame f w).result = .error own) :
    w.kept (f :: frames) = (writeFrame f w).state.kept frames := by
  simp only [kept, Course.results_cons, List.zip_cons_cons, List.filterMap_cons, h]

/-- **A smooth course:** the sink does not fail, and no data are too long for any frame. -/
structure Smooth (w : Writer) (frames : List (Bytes × Tag)) : Prop where
  answered : ∀ r ∈ Course.results writeFrame w frames,
    r = .ok () ∨ ∃ fault, r = .error (.stream fault)
  sized : ∀ front f back, frames = front ++ f :: back →
    ¬(Course.state writeFrame w front).Oversized f.1

/-- What is left of a smooth course is one. -/
theorem Smooth.tail {f : Bytes × Tag} (h : Smooth w (f :: frames)) :
    Smooth (writeFrame f w).state frames where
  answered := fun r hr => h.answered r (List.mem_cons_of_mem _ hr)
  sized := by
    rintro front g back rfl
    exact h.sized (f :: front) g back rfl

/-- **The frames that were kept** in a smooth course fit, and they are in the sink as their wire. -/
theorem course_kept (frames : List (Bytes × Tag)) :
    ∀ {w : Writer}, w.sink.OwnFaults → Smooth w frames →
      AllFit w.stream (kept w frames) ∧
        (Course.state writeFrame w frames).stream = behind w.stream (kept w frames) ∧
        (Course.state writeFrame w frames).sink.contents =
          w.sink.contents ++ wire w.stream (kept w frames) := by
  induction frames with
  | nil =>
    intro w _ _
    exact ⟨.nil, rfl, (List.append_nil _).symm⟩
  | cons f fs ih =>
    intro w hsink hsmooth
    obtain ⟨hfit, hstream, hcontents⟩ := ih (w := (writeFrame f w).state)
      (ownFaults_writeChunk hsink f.1 f.2) hsmooth.tail
    rw [Course.state_cons]
    rcases hsmooth.answered (writeFrame f w).result (List.mem_cons_self ..) with hok | ⟨fault, hno⟩
    · obtain ⟨hfits, hwritten, hadvanced⟩ : Gave w f.1 f.2 (writeFrame f w).state :=
        gave_of_writeChunk hok
      rw [hadvanced] at hfit hstream hcontents
      rw [kept_cons_of_ok hok]
      refine ⟨.cons hfits hfit, hstream, ?_⟩
      rw [hcontents, hwritten, wire, List.append_assoc]
    · have hsame : writeFrame f w = _ :=
        writeChunk_of_declined hsink hno (hsmooth.sized [] f fs rfl)
      rw [hsame] at hfit hstream hcontents
      rw [kept_cons_of_error hno, hsame]
      exact ⟨hfit, hstream, hcontents⟩

/-- **Frames of data that are offered** on a healthy sink make a smooth course in which those within
the limit are kept, if the limit leaves room for the overhead in the four bytes of a length. -/
theorem smooth_of_offered {limit : Nat} (hsize : limit + chunkOverhead < UInt32.size)
    (hdata : ∀ f ∈ frames, f.2 ≠ .final) (hsink : w.sink.Healthy)
    (hphase : w.stream.phase = .streaming) (hlimit : w.stream.maxChunkLen.toNat = limit) :
    w.Smooth frames ∧ w.kept frames = accepted limit frames := by
  obtain ⟨hresults, -⟩ := course_offered frames hsize hdata hsink hphase hlimit
  refine ⟨⟨fun r hr => ?_, fun front f back hsplit hover => ?_⟩, ?_⟩
  · rw [hresults] at hr
    obtain ⟨f, -, rfl⟩ := List.mem_map.mp hr
    rw [verdict]
    split
    · exact .inl rfl
    · exact .inr ⟨_, rfl⟩
  · -- the limit is the same wherever the course is
    have hfront : ∀ f ∈ front, f.2 ≠ .final := fun f hf =>
      hdata f (hsplit ▸ List.mem_append_left _ hf)
    obtain ⟨-, -, hstream, -⟩ := course_offered front hsize hfront hsink hphase hlimit
    obtain ⟨-, hle, hlt⟩ := hover
    rw [hstream, maxChunkLen_behind, hlimit] at hle
    omega
  · rw [kept, hresults]
    clear hdata hresults
    induction frames with
    | nil => rfl
    | cons f fs ih =>
      rw [List.map_cons, List.zip_cons_cons, List.filterMap_cons, ih, verdict]
      by_cases hle : f.1.length ≤ limit
      · rw [if_pos hle, accepted_cons_of_le hle]
      · rw [if_neg hle, accepted_cons_of_not_le hle]

end Writer

/-! ## Refusals leave no trace -/

/-- **Frames are recovered:** a reader under this key and these settings takes them from the wire,
whatever comes behind it and however it is cut. -/
def Recovered (key : SessionKey) (config : Config) (written : Bytes)
    (frames : List (Bytes × Tag)) : Prop :=
  ∀ (source : Source) (extra : Bytes), source.Healthy → source.rest = written ++ extra →
    ∃ reader, (Reader.start source key config).result = .ok reader ∧
      Course.results Reader.readFrame reader (List.replicate frames.length ()) =
        frames.map (fun f => .ok (some f)) ∧
      (Course.state Reader.readFrame reader (List.replicate frames.length ())).source.rest = extra

/-- The wire of frames that fit is recovered, whether it ends or not. -/
theorem recovered_of_allFit {key : SessionKey} {header : Header} {config : Config}
    {frames : List (Bytes × Tag)} (hfit : AllFit (.fresh key header config) frames) :
    Recovered key config (header.bytes ++ wire (.fresh key header config) frames) frames := by
  intro source extra hsource hrest
  rw [List.append_assoc] at hrest
  obtain ⟨source', hstart, hahead⟩ := Reader.ahead_of_delivers (hsource.delivers hrest) hfit
  obtain ⟨hresults, hback⟩ := Reader.course_reads _ hahead
  exact ⟨_, by rw [hstart], hresults, hback.healthy.2⟩

section

variable {ρ : Type} [Entropy ρ] {random : ρ} {sink : Sink} {key : SessionKey} {config : Config}
  {first : Writer}

/-- **Refused writes leave no trace,** unless the data were too long for any frame. A writer that is
refused data by its stream is the same as before, with its sink. So a reader under the same key and
settings recovers the frames of which the writing succeeded, also those behind refused ones, and
the trailer behind them, once the writer finished. -/
theorem refused_writes_leave_no_trace (hsink : sink.OwnFaults)
    (hstart : (Writer.start sink key random config).result = .ok first) :
    (∀ (w : Writer) (data : Bytes) (tag : Tag) (fault : StreamFault), w.sink.OwnFaults →
      (w.writeChunk data tag).result = .error (.stream fault) → ¬w.Oversized data →
      (w.writeChunk data tag).state = w) ∧
    ∀ frames, first.Smooth frames →
      (∃ written,
        (Course.state Writer.writeFrame first frames).sink.contents = sink.contents ++ written ∧
        Recovered key config written (first.kept frames)) ∧
      ∀ trailer, ((Course.state Writer.writeFrame first frames).finish trailer).result = .ok () →
        ∃ written,
          ((Course.state Writer.writeFrame first frames).finish trailer).state.sink.contents =
            sink.contents ++ written ∧
          ReadsBack key config written (first.kept frames) trailer := by
  refine ⟨fun w data tag fault hown hrefused hdata => ?_, fun frames hsmooth => ?_⟩
  · rw [Writer.writeChunk_of_declined hown hrefused hdata]
  · obtain ⟨-, header, -, hstream, hheader⟩ := Writer.gave_of_start hstart
    obtain ⟨hfit, hbehind, hcontents⟩ :=
      Writer.course_kept frames (Writer.ownFaults_of_start hsink hstart) hsmooth
    rw [hstream] at hfit hbehind hcontents
    rw [hheader, List.append_assoc] at hcontents
    refine ⟨⟨_, hcontents, recovered_of_allFit hfit⟩, fun trailer hfinish => ?_⟩
    obtain ⟨hlast, hwhole⟩ := Writer.gave_of_finish hfinish
    rw [hbehind] at hlast hwhole
    refine ⟨header.bytes ++ wire (.fresh key header config)
      (first.kept frames ++ [(trailer, .final)]), ?_,
      readsBack_of_allFit (allFit_append.mpr ⟨hfit, .cons hlast .nil⟩)⟩
    rw [hwhole, hcontents, wire_append]
    simp only [List.append_assoc]

end

/-- Three frames, of which the second has more than two bytes. -/
def threeFrames : List (Bytes × Tag) := [([1], .message), ([1, 2, 3], .push), ([], .rekey)]

/-- Of three frames that are offered under a limit of two bytes the second is refused, and a reader
recovers the two others and the trailer. -/
theorem refused_write_leaves_no_trace_between_two :
    Sink.OwnFaults {} ∧ ∃ first : Writer,
      (Writer.start {} (.zero 32) (Tape.mk (Octets.zero 24).bytes) { maxChunkLen := 2 }).result =
        .ok first ∧
      first.Smooth threeFrames ∧
      ((Course.state Writer.writeFrame first threeFrames).finish [9]).result = .ok () ∧
      ∃ written,
        ((Course.state Writer.writeFrame first threeFrames).finish [9]).state.sink.contents =
          [] ++ written ∧
        ReadsBack (.zero 32) { maxChunkLen := 2 } written [([1], .message), ([], .rekey)] [9] := by
  have hdraw : (Entropy.draw (Tape.mk (Octets.zero 24).bytes) 24).1 = .ok (Octets.zero 24) := rfl
  have hconfig : ({ maxChunkLen := 2 } : Config).maxChunkLen ≠ 0 := by decide
  have hlimit : 2 + chunkOverhead < UInt32.size := by decide
  have htrailer : ([9] : Bytes).length ≤ 2 := by decide
  have hdata : ∀ f ∈ threeFrames, f.2 ≠ .final := by decide
  have hown : Sink.OwnFaults {} := nofun
  obtain ⟨sink, hstart, hsink, -⟩ :=
    Writer.start_of_draw hdraw hconfig Sink.healthy_empty (.zero 32)
  generalize hstream : Stream.fresh (.zero 32) (.zero 24) { maxChunkLen := 2 } = stream at hstart
  have hphase : stream.phase = .streaming := by
    rw [← hstream]
    rfl
  have hmax : stream.maxChunkLen.toNat = 2 := by
    rw [← hstream]
    rfl
  obtain ⟨-, hsink', hbehind, -⟩ := Writer.course_offered threeFrames hlimit hdata
    (w := .upon sink stream) hsink hphase hmax
  obtain ⟨hsmooth, hkept⟩ := Writer.smooth_of_offered hlimit hdata (w := .upon sink stream) hsink
    hphase hmax
  rw [Writer.stream_upon] at hbehind
  rw [← hmax] at hlimit htrailer
  obtain ⟨-, _ | ⟨hlast, -⟩⟩ := allFit_append.mp (allFit_accepted hphase hlimit hdata htrailer)
  rw [hmax, ← hbehind] at hlast
  have hfinish := (Writer.finish_of_fits hsink' hlast).1
  obtain ⟨-, hleft⟩ := refused_writes_leave_no_trace hown hstart
  obtain ⟨-, hback⟩ := hleft threeFrames hsmooth
  rw [hkept] at hback
  exact ⟨hown, _, hstart, hsmooth, hfinish, hback [9] hfinish⟩

/-- **Data too long for any frame leave a trace:** a writer whose limit is above their length
refuses them, and its counter moved on. -/
theorem oversized_write_leaves_a_trace :
    ∃ (first : Writer) (data : Bytes), data = List.replicate 4294967279 0 ∧
      (Writer.start {} (.zero 32) (Tape.mk (Octets.zero 24).bytes)
        { maxChunkLen := 4294967296 }).result = .ok first ∧
      (first.writeChunk data .message).result =
        .error (.stream (.tooLong 4294967279 4294967278)) ∧
      (first.writeChunk data .message).state.sink = first.sink ∧
      first.stream.counter = 0 ∧ (first.writeChunk data .message).state.stream.counter = 1 := by
  have hdraw : (Entropy.draw (Tape.mk (Octets.zero 24).bytes) 24).1 = .ok (Octets.zero 24) := rfl
  have hconfig : ({ maxChunkLen := 4294967296 } : Config).maxChunkLen ≠ 0 := by decide
  obtain ⟨sink, hstart, -, -⟩ :=
    Writer.start_of_draw hdraw hconfig Sink.healthy_empty (.zero 32)
  have hlen : (List.replicate 4294967279 (0 : UInt8)).length = 4294967279 := List.length_replicate
  generalize List.replicate 4294967279 (0 : UInt8) = data at hlen
  have hsize : UInt32.size ≤ data.length + chunkOverhead := by
    rw [hlen]
    decide
  refine ⟨_, _, rfl, hstart, ?_⟩
  rw [Writer.writeChunk_of_oversized hsize, hlen]
  exact ⟨rfl, rfl, rfl, rfl⟩

end Frame

end AeadStream
