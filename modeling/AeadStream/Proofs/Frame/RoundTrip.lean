import AeadStream.Proofs.Frame.Wire
import AeadStream.Proofs.Stream.Lockstep

/-!
# Frames come back

What a writer is given and does not refuse comes out of a reader under the same key, frame after
frame and the trailer last, however the bytes are cut on the way. Frames that were refused leave
no trace, and what comes behind the final frame is not read.

* `wire_inStep`, `AllFit.inStep` — streams that are in step have the same wire;
* `Writer.course_offered` — a writer takes the frames within its limit and refuses the others;
* `frames_come_back` — the way from a writer to a reader.
-/

namespace AeadStream.Frame

variable {plaintext : Bytes} {tag : Tag} {frames : List (Bytes × Tag)} {s r : Stream}

/-! ## Both sides have the same wire -/

/-- Streams in step put the same frames on the wire in the same way. -/
theorem wire_inStep (h : s.InStep r) (frames : List (Bytes × Tag)) :
    wire r frames = wire s frames := by
  induction frames generalizing s r with
  | nil => rfl
  | cons f fs ih => rw [wire, wire, h.chunk_eq, ih (h.advance f.2)]

/-- Frames that fit on one side fit on the other, if its limit is not below. -/
theorem AllFit.inStep (hfit : AllFit s frames) :
    ∀ {r : Stream}, s.InStep r → s.maxChunkLen ≤ r.maxChunkLen → AllFit r frames := by
  induction hfit with
  | nil =>
    intro r _ _
    exact .nil
  | @cons s plaintext tag frames hfits _ ih =>
    intro r h hlimit
    have hle := UInt64.le_iff_toNat_le.mp hlimit
    refine .cons ⟨h.phase ▸ hfits.streaming, Nat.le_trans hfits.le_limit hle, hfits.lt_size⟩
      (ih (h.advance tag) ?_)
    rwa [Stream.maxChunkLen_advance, Stream.maxChunkLen_advance]

/-- Sides whose numbers of chunks per subkey agree, once these are brought into the accepted
range, begin in step under a common header. -/
theorem inStep_of_clamped {wc rc : Config}
    (hclamp : max 1 (min wc.rekeyInterval.toNat Config.maxRekeyInterval.toNat) =
      max 1 (min rc.rekeyInterval.toNat Config.maxRekeyInterval.toNat))
    (key : SessionKey) (header : Header) :
    (Stream.fresh key header wc).InStep (.fresh key header rc) := by
  refine Stream.InStep.fresh key header (UInt32.toNat.inj ?_)
  rw [Config.toNat_ceiling, Config.toNat_ceiling, hclamp]

/-! ## Frames that are offered to a writer -/

/-- **What comes of a frame** that is offered under this limit on plaintexts. -/
def verdict (limit : Nat) (f : Bytes × Tag) : Except IoFault Unit :=
  if f.1.length ≤ limit then .ok () else .error (.stream (.tooLong f.1.length limit))

/-- The frames that are within the limit. -/
def accepted (limit : Nat) (frames : List (Bytes × Tag)) : List (Bytes × Tag) :=
  frames.filter fun f => f.1.length ≤ limit

theorem mem_accepted {limit : Nat} {f : Bytes × Tag} :
    f ∈ accepted limit frames ↔ f ∈ frames ∧ f.1.length ≤ limit := by
  rw [accepted, List.mem_filter, decide_eq_true_iff]

theorem accepted_cons_of_le {limit : Nat} {f : Bytes × Tag} (hle : f.1.length ≤ limit) :
    accepted limit (f :: frames) = f :: accepted limit frames :=
  List.filter_cons_of_pos (decide_eq_true hle)

theorem accepted_cons_of_not_le {limit : Nat} {f : Bytes × Tag} (hle : ¬f.1.length ≤ limit) :
    accepted limit (f :: frames) = accepted limit frames :=
  List.filter_cons_of_neg (by simpa using hle)

/-- Frames that are within the limit fit, with the trailer behind them. -/
theorem allFit_accepted {trailer : Bytes} (hphase : s.phase = .streaming)
    (hsize : s.maxChunkLen.toNat + chunkOverhead < UInt32.size)
    (hdata : ∀ f ∈ frames, f.2 ≠ .final) (htrailer : trailer.length ≤ s.maxChunkLen.toNat) :
    AllFit s (accepted s.maxChunkLen.toNat frames ++ [(trailer, .final)]) := by
  refine allFit_whole hphase ?_ ?_ ⟨htrailer, by omega⟩
  · intro f hf
    exact hdata f (mem_accepted.mp hf).1
  · intro f hf
    have hle := (mem_accepted.mp hf).2
    exact ⟨hle, by omega⟩

namespace Writer

/-- A frame beyond the limit is refused and nothing changes. -/
theorem writeChunk_of_lt {w : Writer} (hphase : w.stream.phase = .streaming)
    (hlt : w.stream.maxChunkLen.toNat < plaintext.length) :
    w.writeChunk plaintext tag =
      ⟨.error (.stream (.tooLong plaintext.length w.stream.maxChunkLen.toNat)), w, []⟩ := by
  rw [writeChunk, Stream.push, hphase]
  simp only [if_pos hlt]

/-- **Frames of data that are offered** to a writer: those within the limit are written, and the
others are as if they had not been offered. -/
theorem course_offered (frames : List (Bytes × Tag)) {limit : Nat}
    (hsize : limit + chunkOverhead < UInt32.size) (hdata : ∀ f ∈ frames, f.2 ≠ .final) :
    ∀ {w : Writer}, w.sink.Healthy → w.stream.phase = .streaming →
      w.stream.maxChunkLen.toNat = limit →
      Course.results writeFrame w frames = frames.map (verdict limit) ∧
        (Course.state writeFrame w frames).sink.Healthy ∧
        (Course.state writeFrame w frames).stream = behind w.stream (accepted limit frames) ∧
        (Course.state writeFrame w frames).sink.contents =
          w.sink.contents ++ wire w.stream (accepted limit frames) := by
  induction frames with
  | nil =>
    intro w hsink _ _
    exact ⟨rfl, hsink, rfl, (List.append_nil _).symm⟩
  | cons f fs ih =>
    obtain ⟨plaintext, tag⟩ := f
    obtain ⟨hfirst, hlater⟩ := List.forall_mem_cons.mp hdata
    intro w hsink hphase hlimit
    rw [Course.results_cons, Course.state_cons, List.map_cons, writeFrame]
    by_cases hlen : plaintext.length ≤ limit
    · have hfits : Fits w.stream plaintext := ⟨hphase, hlimit ▸ hlen, by omega⟩
      obtain ⟨sink, hwrite, hhealthy, hcontents⟩ := writeChunk_of_fits hsink hfits tag
      obtain ⟨hresults, hsink', hstream, hcontents'⟩ := ih hlater
        (w := { w with stream := (w.stream.advance tag).1, sink }) hhealthy
        (by rw [Stream.phase_advance hfirst, hphase]) (by rw [Stream.maxChunkLen_advance, hlimit])
      rw [hwrite, accepted_cons_of_le hlen, verdict, if_pos hlen, hresults]
      refine ⟨rfl, hsink', hstream, ?_⟩
      rw [hcontents', hcontents, List.append_assoc, wire]
    · have hlt : w.stream.maxChunkLen.toNat < plaintext.length := by omega
      obtain ⟨hresults, hrest⟩ := ih hlater hsink hphase hlimit
      rw [writeChunk_of_lt hphase hlt, accepted_cons_of_not_le hlen, verdict, if_neg hlen, hresults,
        hlimit]
      exact ⟨rfl, hrest⟩

end Writer

/-! ## Reading on behind the end -/

/-- Once the final frame was read, nothing more comes and nothing more is taken. -/
theorem Reader.course_finished {r : Reader} (h : r.isFinished = true) (n : Nat) :
    Course.results readFrame r (List.replicate n ()) = List.replicate n (.ok none) ∧
      Course.state readFrame r (List.replicate n ()) = r := by
  have hread : r.readChunk = ⟨.ok none, r, []⟩ := by
    rw [readChunk, if_pos h]
  induction n with
  | zero => exact ⟨rfl, rfl⟩
  | succ n ih =>
    rw [List.replicate_succ, List.replicate_succ, Course.results_cons, Course.state_cons, readFrame,
      hread, ih.1, ih.2]
    exact ⟨rfl, rfl⟩

/-- **Frames read back:** a reader under this key and these settings takes them and the trailer
from the wire, whatever comes behind it and however it is cut, and then reports the end as often
as it is asked, without taking more. -/
def ReadsBack (key : SessionKey) (config : Config) (written : Bytes)
    (frames : List (Bytes × Tag)) (trailer : Bytes) : Prop :=
  ∀ (source : Source) (extra : Bytes) (n : Nat), source.Healthy →
    source.rest = written ++ extra →
    ∃ reader, (Reader.start source key config).result = .ok reader ∧
      Course.results Reader.readFrame reader (List.replicate (frames.length + 1 + n) ()) =
        frames.map (fun f => .ok (some f)) ++
          .ok (some (trailer, .final)) :: List.replicate n (.ok none) ∧
      (Course.state Reader.readFrame reader
        (List.replicate (frames.length + 1 + n) ())).source.rest = extra

/-- The wire of frames that fit, with a final one at the end, reads back. -/
theorem readsBack_of_allFit {key : SessionKey} {header : Header} {config : Config}
    {trailer : Bytes} (hfit : AllFit (.fresh key header config) (frames ++ [(trailer, .final)])) :
    ReadsBack key config
      (header.bytes ++ wire (.fresh key header config) (frames ++ [(trailer, .final)])) frames
      trailer := by
  intro source extra n hsource hrest
  rw [List.append_assoc] at hrest
  obtain ⟨source', hstart, hahead⟩ := Reader.ahead_of_delivers (hsource.delivers hrest) hfit
  obtain ⟨hresults, hback⟩ := Reader.course_reads _ hahead
  obtain ⟨-, -, hstream⟩ := Reader.course_took _ hresults
  -- the stream of the reader is finished, so the calls behind it find nothing
  have hfinished : (Course.state Reader.readFrame (.upon source' (.fresh key header config))
      (List.replicate (frames ++ [(trailer, Tag.final)]).length ())).isFinished = true := by
    rw [Reader.isFinished, hstream, behind_append]
    rfl
  obtain ⟨hnone, hsame⟩ := Reader.course_finished hfinished n
  rw [List.length_append, List.length_singleton] at hresults hback hnone hsame
  refine ⟨_, by rw [hstart], ?_, ?_⟩
  · rw [← List.replicate_append_replicate, Course.results_append, hresults, hnone, List.map_append,
      List.append_assoc]
    rfl
  · rw [← List.replicate_append_replicate, Course.state_append, hsame, hback.healthy.2]

/-! ## There and back -/

/-- **Frames come back.** A writer that draws a header is offered frames of data and a trailer
within its limit, which leaves room for the overhead of a chunk in the four bytes of its length.
It takes the frames within the limit and refuses the others, and it finishes. A reader under the
same key gets the frames that were taken and the trailer, if the numbers of chunks per subkey
agree once they are brought into the accepted range and its limit is not below the writer's. -/
theorem frames_come_back {ρ : Type} [Entropy ρ] {random : ρ} {header : Header}
    (hdraw : (Entropy.draw random 24).1 = .ok header) (key : SessionKey) {wc rc : Config}
    (hleast : 1 ≤ wc.maxChunkLen.toNat)
    (hgreatest : wc.maxChunkLen.toNat ≤ UInt32.size - 1 - chunkOverhead)
    (hclamp : max 1 (min wc.rekeyInterval.toNat Config.maxRekeyInterval.toNat) =
      max 1 (min rc.rekeyInterval.toNat Config.maxRekeyInterval.toNat))
    (hlimit : wc.maxChunkLen ≤ rc.maxChunkLen) {sink : Sink} (hsink : sink.Healthy)
    {frames : List (Bytes × Tag)} (hdata : ∀ f ∈ frames, f.2 ≠ .final) {trailer : Bytes}
    (htrailer : trailer.length ≤ wc.maxChunkLen.toNat) :
    ∃ writer written, (Writer.start sink key random wc).result = .ok writer ∧
      Course.results Writer.writeFrame writer frames =
        frames.map (verdict wc.maxChunkLen.toNat) ∧
      ((Course.state Writer.writeFrame writer frames).finish trailer).result = .ok () ∧
      ((Course.state Writer.writeFrame writer frames).finish trailer).state.sink.contents =
        sink.contents ++ written ∧
      ReadsBack key rc written (accepted wc.maxChunkLen.toNat frames) trailer := by
  have hconfig : wc.maxChunkLen ≠ 0 := by
    intro h0
    rw [h0] at hleast
    exact absurd hleast (by decide)
  have hsize : wc.maxChunkLen.toNat + chunkOverhead < UInt32.size := by
    simp only [chunkOverhead, UInt32.size] at hgreatest ⊢
    omega
  have hfit : AllFit (.fresh key header wc)
      (accepted wc.maxChunkLen.toNat frames ++ [(trailer, .final)]) :=
    allFit_accepted rfl hsize hdata htrailer
  have hinStep := inStep_of_clamped hclamp key header
  obtain ⟨begun, hstart, hhealthy, hheader⟩ := Writer.start_of_draw hdraw hconfig hsink key
  obtain ⟨hresults, hhealthy', hstream, hcontents⟩ := Writer.course_offered frames hsize hdata
    (w := .upon begun (.fresh key header wc)) hhealthy rfl rfl
  obtain ⟨-, _ | ⟨hlast, -⟩⟩ := allFit_append.mp hfit
  rw [Writer.stream_upon] at hstream hcontents
  rw [← hstream] at hlast
  obtain ⟨hfinish, hcontents'⟩ := Writer.finish_of_fits hhealthy' hlast
  refine ⟨_, header.bytes ++ wire (.fresh key header wc)
    (accepted wc.maxChunkLen.toNat frames ++ [(trailer, .final)]), hstart, hresults, hfinish, ?_,
    ?_⟩
  · rw [hcontents', hcontents, Writer.sink_upon, hheader, hstream, wire_append]
    simp only [List.append_assoc]
  · rw [← wire_inStep hinStep]
    exact readsBack_of_allFit (hfit.inStep hinStep hlimit)

/-- Of three frames that are offered under a limit of two bytes the second is refused, and the
sink takes a byte at a time. -/
theorem frames_come_back_beside_a_refused_one :
    ∃ writer written,
      (Writer.start { turns := [.interrupt], stride := some 1 } (.zero 32)
        (Tape.mk (Octets.zero 24).bytes) { rekeyInterval := 0, maxChunkLen := 2 }).result =
          .ok writer ∧
      Course.results Writer.writeFrame writer [([1], .message), ([1, 2, 3], .push), ([], .rekey)] =
        [.ok (), .error (.stream (.tooLong 3 2)), .ok ()] ∧
      ((Course.state Writer.writeFrame writer
        [([1], .message), ([1, 2, 3], .push), ([], .rekey)]).finish [9]).result = .ok () ∧
      ((Course.state Writer.writeFrame writer
        [([1], .message), ([1, 2, 3], .push), ([], .rekey)]).finish [9]).state.sink.contents =
          [] ++ written ∧
      ReadsBack (.zero 32) { rekeyInterval := 1 } written [([1], .message), ([], .rekey)] [9] := by
  have hdraw : (Entropy.draw (Tape.mk (Octets.zero 24).bytes) 24).1 = .ok (Octets.zero 24) := rfl
  exact frames_come_back hdraw (.zero 32) (by decide) (by decide) (by decide) (by decide)
    ⟨by decide, by decide, rfl, rfl⟩ (by decide) (by decide)

end AeadStream.Frame
