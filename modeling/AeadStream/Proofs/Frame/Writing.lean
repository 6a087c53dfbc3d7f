import AeadStream.Proofs.Frame.Draining
import AeadStream.Proofs.Pipe.Pieces

/-!
# Bytes come back

Bytes that are handed to a writer come out of a reader as they went in, whatever buffers they were
handed over in and whatever buffers they are read into. Each buffer is cut into chunks on its own,
as few as the limit of the stream allows.

* `Writer.writeAll_of_allFit`, `Writer.course_buffers` — one buffer, and any number of them;
* `Cut` — how a buffer is cut;
* `bytes_come_back` — there and back.
-/

namespace AeadStream.Frame

open AeadStream.Pipe

/-! ## One buffer -/

namespace Writer

variable {w w' : Writer} {piece left data : Bytes} {events : List Event} {limit : Nat}

/-- There is nothing to write. -/
theorem writeAll_nil (w : Writer) : w.writeAll [] = ⟨.ok (), w, []⟩ := by
  rw [writeAll, dif_pos rfl]

/-- The first bytes are written as a chunk, as many as the limit allows, and the writing goes on
behind them. -/
theorem writeAll_append (hne : piece ≠ [])
    (hpiece : piece.length = min (piece ++ left).length w.maxChunkLen.toNat)
    (hwrite : w.writeChunk piece .message = ⟨.ok (), w', events⟩) :
    w.writeAll (piece ++ left) = (w'.writeAll left).after events := by
  have hsome : piece ++ left ≠ [] := List.append_ne_nil_of_left_ne_nil hne left
  have htake : (piece ++ left).take piece.length = piece := List.take_left
  have hfirst : w.write (piece ++ left) = ⟨.ok piece.length, w', events⟩ := by
    rw [write, if_neg hsome, ← hpiece]
    simp only [htake, hwrite]
    rfl
  have hdrop : (piece ++ left).drop piece.length = left := List.drop_left
  obtain ⟨k, hk⟩ := Nat.exists_eq_succ_of_ne_zero (mt List.length_eq_zero_iff.mp hne)
  rw [hk] at hfirst hdrop
  rw [writeAll, dif_neg hsome]
  simp only [hfirst, hdrop]

/-- **A buffer whose frames fit is written** to a healthy sink. -/
theorem writeAll_of_allFit (hlimit : limit ≠ 0) :
    ∀ {w : Writer}, w.sink.Healthy → w.maxChunkLen.toNat = limit →
      AllFit w.stream (dataFrames limit data) →
      ∃ (sink : Sink) (events : List Event),
        w.writeAll data =
          ⟨.ok (), { w with stream := behind w.stream (dataFrames limit data), sink }, events⟩ ∧
        sink.Healthy ∧
        sink.contents = w.sink.contents ++ wire w.stream (dataFrames limit data) := by
  induction data using pieces_induction hlimit with
  | nil =>
    intro w hsink _ _
    refine ⟨w.sink, [], ?_, hsink, ?_⟩
    · rw [writeAll_nil, dataFrames_nil, behind]
    · rw [dataFrames_nil, wire, List.append_nil]
  | short piece hne hshort =>
    intro w hsink hw hfit
    have hle := Nat.le_of_lt hshort
    rw [dataFrames_of_le hne hle] at hfit ⊢
    obtain _ | ⟨hfits, -⟩ := hfit
    obtain ⟨sink, hwrite, hhealthy, hcontents⟩ := writeChunk_of_fits hsink hfits .message
    have hpiece : piece.length = min (piece ++ []).length w.maxChunkLen.toNat := by
      rw [List.append_nil]
      omega
    have hall := writeAll_append hne hpiece hwrite
    rw [List.append_nil, writeAll_nil] at hall
    refine ⟨sink, _, hall, hhealthy, ?_⟩
    rw [hcontents, wire, wire, List.append_nil]
  | whole piece left hlen ih =>
    intro w hsink hw hfit
    have hne : piece ≠ [] := mt List.length_eq_zero_iff.mpr (hlen.trans_ne hlimit)
    rw [dataFrames_append hlimit hlen] at hfit ⊢
    obtain _ | ⟨hfits, hlater⟩ := hfit
    obtain ⟨sink₁, hwrite, hhealthy₁, hcontents₁⟩ := writeChunk_of_fits hsink hfits .message
    have hpiece : piece.length = min (piece ++ left).length w.maxChunkLen.toNat := by
      rw [List.length_append]
      omega
    obtain ⟨sink₂, events, hall, hhealthy₂, hcontents₂⟩ :=
      ih (w := { w with stream := (w.stream.advance .message).1, sink := sink₁ }) hhealthy₁ hw hlater
    refine ⟨sink₂, (w.stream.advance .message).2 ++ events, ?_, hhealthy₂, ?_⟩
    · rw [writeAll_append hne hpiece hwrite, hall]
      rfl
    · rw [hcontents₂, hcontents₁, wire, List.append_assoc]

/-! ## Any number of buffers -/

/-- Writes a buffer. -/
def writeBuffer (data : Bytes) (w : Writer) : Outcome IoFault Writer Unit := w.writeAll data

/-- **The frames of buffers,** each of which is cut on its own. -/
def bufferFrames (limit : Nat) (buffers : List Bytes) : List (Bytes × Tag) :=
  buffers.flatMap (dataFrames limit)

/-- They hold what is in the buffers. -/
theorem flatMap_bufferFrames (limit : Nat) (buffers : List Bytes) :
    (bufferFrames limit buffers).flatMap Prod.fst = buffers.flatten := by
  induction buffers with
  | nil => rfl
  | cons data buffers ih =>
    rw [bufferFrames, List.flatMap_cons, List.flatMap_append, flatMap_dataFrames,
      List.flatten_cons, ← ih]
    rfl

/-- None of them is final. -/
theorem ne_final_of_mem_bufferFrames {buffers : List Bytes} {f : Bytes × Tag}
    (hmem : f ∈ bufferFrames limit buffers) : f.2 ≠ .final := by
  obtain ⟨data, -, hf⟩ := List.mem_flatMap.mp hmem
  exact ne_final_of_mem_dataFrames hf

/-- All of them fit, with a trailer behind them, if the limit leaves room for the overhead in the
four bytes of a length. -/
theorem allFit_bufferFrames {s : Stream} {trailer : Bytes} (hphase : s.phase = .streaming)
    (hlimit : s.maxChunkLen.toNat ≠ 0)
    (hsize : s.maxChunkLen.toNat ≤ UInt32.size - 1 - chunkOverhead)
    (htrailer : trailer.length ≤ s.maxChunkLen.toNat) (buffers : List Bytes) :
    AllFit s (bufferFrames s.maxChunkLen.toNat buffers ++ [(trailer, .final)]) := by
  have hroom : ∀ {n : Nat}, n ≤ s.maxChunkLen.toNat → n + chunkOverhead < UInt32.size := by
    intro n hn
    simp only [UInt32.size, chunkOverhead] at hsize ⊢
    omega
  refine allFit_whole hphase (fun _ => ne_final_of_mem_bufferFrames) ?_
    ⟨htrailer, hroom htrailer⟩
  intro f hf
  obtain ⟨data, -, hmem⟩ := List.mem_flatMap.mp hf
  have hle := length_le_of_mem_dataFrames hlimit hmem
  exact ⟨hle, hroom hle⟩

/-- **Buffers whose frames fit are written,** one after the other. -/
theorem course_buffers (hlimit : limit ≠ 0) (buffers : List Bytes) :
    ∀ {w : Writer}, w.sink.Healthy → w.maxChunkLen.toNat = limit →
      AllFit w.stream (bufferFrames limit buffers) →
      Course.results writeBuffer w buffers = buffers.map (fun _ => .ok ()) ∧
        (Course.state writeBuffer w buffers).sink.Healthy ∧
        (Course.state writeBuffer w buffers).stream =
          behind w.stream (bufferFrames limit buffers) ∧
        (Course.state writeBuffer w buffers).maxChunkLen = w.maxChunkLen ∧
        (Course.state writeBuffer w buffers).sink.contents =
          w.sink.contents ++ wire w.stream (bufferFrames limit buffers) := by
  induction buffers with
  | nil =>
    intro w hsink _ _
    exact ⟨rfl, hsink, rfl, rfl, (List.append_nil _).symm⟩
  | cons data buffers ih =>
    intro w hsink hw hfit
    have hframes : bufferFrames limit (data :: buffers) =
      dataFrames limit data ++ bufferFrames limit buffers := List.flatMap_cons
    rw [hframes] at hfit ⊢
    obtain ⟨hfirst, hlater⟩ := allFit_append.mp hfit
    obtain ⟨sink, events, hwrite, hhealthy, hcontents⟩ := writeAll_of_allFit hlimit hsink hw hfirst
    obtain ⟨hresults, hhealthy', hstream, hown, hcontents'⟩ :=
      ih (w := { w with stream := behind w.stream (dataFrames limit data), sink }) hhealthy hw
        hlater
    rw [Course.results_cons, Course.state_cons, writeBuffer, hwrite, List.map_cons]
    refine ⟨congrArg (_ :: ·) hresults, hhealthy', ?_, hown, ?_⟩
    · rw [hstream, behind_append]
    · rw [hcontents', hcontents, wire_append, List.append_assoc]

end Writer

/-! ## There and back -/

/-- **How a buffer is cut** under this limit: into chunks of data that hold it, as few as it takes,
of which all but the last are as long as the limit. -/
structure Cut (limit : Nat) (data : Bytes) (frames : List (Bytes × Tag)) : Prop where
  messages : ∀ f ∈ frames, f.2 = .message
  count : frames.length = data.length ⌈/⌉ limit
  full : ∀ f ∈ frames.dropLast, f.1.length = limit
  whole : frames.flatMap Prod.fst = data

/-- Pieces are such chunks. -/
theorem cut_dataFrames {limit : Nat} (hlimit : limit ≠ 0) (data : Bytes) :
    Cut limit data (dataFrames limit data) where
  messages := by
    intro f hf
    obtain ⟨piece, -, rfl⟩ := List.mem_map.mp hf
    rfl
  count := length_dataFrames hlimit data
  full := length_of_mem_dropLast_dataFrames hlimit data
  whole := flatMap_dataFrames limit data

/-- **A buffer was cut** on the way from one state of a writer to the next: its chunks are on the
wire, behind what was there. -/
def CutInto (limit : Nat) (data : Bytes) (before after : Writer) : Prop :=
  ∃ frames, Cut limit data frames ∧
    after.sink.contents = before.sink.contents ++ wire before.stream frames

/-- Each of the buffers is cut, where their frames fit. -/
theorem cutInto_of_allFit {limit : Nat} (hlimit : limit ≠ 0) {w : Writer} {front back : List Bytes}
    {data : Bytes} (hsink : w.sink.Healthy) (hw : w.maxChunkLen.toNat = limit)
    (hfit : AllFit w.stream (Writer.bufferFrames limit (front ++ data :: back))) :
    CutInto limit data (Course.state Writer.writeBuffer w front)
      (Course.state Writer.writeBuffer w (front ++ [data])) := by
  have hframes : Writer.bufferFrames limit (front ++ data :: back) =
      Writer.bufferFrames limit front ++
        (dataFrames limit data ++ Writer.bufferFrames limit back) := by
    rw [Writer.bufferFrames, List.flatMap_append, List.flatMap_cons]
    rfl
  rw [hframes] at hfit
  obtain ⟨hfront, hlater⟩ := allFit_append.mp hfit
  obtain ⟨-, hhealthy, hstream, hown, -⟩ := Writer.course_buffers hlimit front hsink hw hfront
  rw [← hstream] at hlater
  obtain ⟨sink, events, hwrite, -, hcontents⟩ := Writer.writeAll_of_allFit hlimit hhealthy
    (by rw [hown, hw]) (allFit_append.mp hlater).1
  refine ⟨_, cut_dataFrames hlimit data, ?_⟩
  rw [Course.state_append, Course.state_cons, Course.state_nil, Writer.writeBuffer, hwrite,
    hcontents]

/-- **These bytes read back,** behind a header and from any healthy source: read in pieces of any
sizes they are the plaintext, and the trailer is behind it. -/
def BytesReadBack (key : SessionKey) (config : Config) (written plaintext trailer : Bytes) : Prop :=
  ∀ (source : Source) (back : Bytes), source.Healthy → source.rest = written ++ back →
    ∃ r, (Reader.start source key config).result = .ok r ∧
      ∀ sizes : Nat → Nat, (∀ i, sizes i ≠ 0) →
        (r.readThrough sizes).1 = plaintext ∧ (r.readThrough sizes).2.result = .ok () ∧
          (r.readThrough sizes).2.state.trailer = some trailer

/-- Frames that fit read back as what they hold. -/
theorem bytesReadBack_of_allFit {header : Header} {config : Config} {trailer : Bytes}
    {frames : List (Bytes × Tag)} {key : SessionKey}
    (hfit : AllFit (.fresh key header config) (frames ++ [(trailer, .final)]))
    (hdata : ∀ f ∈ frames, f.2 ≠ .final) :
    BytesReadBack key config
      (header.bytes ++ wire (.fresh key header config) (frames ++ [(trailer, .final)]))
      (frames.flatMap Prod.fst) trailer := by
  intro source back hsource hrest
  rw [List.append_assoc] at hrest
  obtain ⟨source', hstart, hahead⟩ := Reader.ahead_of_delivers (hsource.delivers hrest) hfit
  refine ⟨_, by rw [hstart], fun sizes hsizes => ?_⟩
  obtain ⟨hframes, hresult, -⟩ := Reader.chunksThrough_of_ahead hdata hahead
  obtain ⟨hbytes, hend⟩ :=
    Reader.readThrough_eq (.upon source' (.fresh key header config)) hsizes
  have hsame : (Reader.upon source' (.fresh key header config)).holding [] =
    .upon source' (.fresh key header config) := rfl
  rw [hsame] at hbytes hend
  rw [Reader.asBytes, hresult] at hend
  refine ⟨?_, congrArg Outcome.result hend, congrArg (fun o => o.state.trailer) hend⟩
  rw [hbytes, hframes]
  rfl

/-- **Bytes come back.** Under every limit from one byte on that leaves room for the overhead in the
four bytes of a length, buffers of any lengths are written to a healthy sink, each in as few chunks
as it takes, and the writer finishes with a trailer within the limit. What it wrote reads back as
the buffers one behind the other, in pieces of any sizes, with the trailer behind them. -/
theorem bytes_come_back {ρ : Type} [Entropy ρ] {random : ρ} {header : Header}
    (hdraw : (Entropy.draw random 24).1 = .ok header) (key : SessionKey) (config : Config)
    (hlimit : 1 ≤ config.maxChunkLen.toNat)
    (hsize : config.maxChunkLen.toNat ≤ UInt32.size - 1 - chunkOverhead) {trailer : Bytes}
    (htrailer : trailer.length ≤ config.maxChunkLen.toNat) {sink : Sink} (hsink : sink.Healthy)
    (buffers : List Bytes) :
    ∃ w, (Writer.start sink key random config).result = .ok w ∧
      Course.results Writer.writeBuffer w buffers = buffers.map (fun _ => .ok ()) ∧
      (∀ front data back, buffers = front ++ data :: back →
        CutInto config.maxChunkLen.toNat data (Course.state Writer.writeBuffer w front)
          (Course.state Writer.writeBuffer w (front ++ [data]))) ∧
      ((Course.state Writer.writeBuffer w buffers).finish trailer).result = .ok () ∧
      ∃ written, ((Course.state Writer.writeBuffer w buffers).finish trailer).state.sink.contents =
          sink.contents ++ written ∧
        BytesReadBack key config written buffers.flatten trailer := by
  have hne : config.maxChunkLen.toNat ≠ 0 := Nat.pos_iff_ne_zero.mp hlimit
  have hconfig : config.maxChunkLen ≠ 0 := by
    rintro h0
    exact hne (congrArg UInt64.toNat h0)
  have hfit : AllFit (.fresh key header config)
      (Writer.bufferFrames config.maxChunkLen.toNat buffers ++ [(trailer, .final)]) :=
    Writer.allFit_bufferFrames rfl hne hsize htrailer buffers
  obtain ⟨hdata, _ | ⟨hlast, -⟩⟩ := allFit_append.mp hfit
  obtain ⟨begun, hstart, hhealthy, hheader⟩ := Writer.start_of_draw hdraw hconfig hsink key
  obtain ⟨hresults, hhealthy', hstream, -, hcontents⟩ :=
    Writer.course_buffers hne buffers (w := .upon begun (.fresh key header config)) hhealthy rfl
      hdata
  obtain ⟨hfinish, hwritten⟩ := Writer.finish_of_fits hhealthy' (by rw [hstream]; exact hlast)
  have hback := bytesReadBack_of_allFit hfit fun _ => Writer.ne_final_of_mem_bufferFrames
  rw [Writer.flatMap_bufferFrames] at hback
  refine ⟨_, hstart, hresults, ?_, hfinish, _, ?_, hback⟩
  · rintro front data back rfl
    exact cutInto_of_allFit hne hhealthy rfl hdata
  · rw [hwritten, hstream, hcontents, Writer.sink_upon, Writer.stream_upon, hheader, wire_append]
    simp only [List.append_assoc]

/-- Two bytes at a time, with an empty buffer between the others and a buffer that ends at the
limit. -/
theorem bytes_come_back_in_pairs :
    (Entropy.draw (Tape.mk (Octets.zero 24).bytes) 24).1 = .ok (Octets.zero 24) ∧
      1 ≤ (2 : UInt64).toNat ∧ (2 : UInt64).toNat ≤ UInt32.size - 1 - chunkOverhead ∧
      ([9] : Bytes).length ≤ (2 : UInt64).toNat ∧ Sink.Healthy { stride := some 1 } ∧
      ∃ w, (Writer.start { stride := some 1 } (.zero 32) (Tape.mk (Octets.zero 24).bytes)
          { maxChunkLen := 2 }).result = .ok w ∧
        ∃ written, ((Course.state Writer.writeBuffer w [[1, 2, 3], [], [4, 5]]).finish
            [9]).state.sink.contents = written ∧
          BytesReadBack (.zero 32) { maxChunkLen := 2 } written [1, 2, 3, 4, 5] [9] := by
  have hdraw : (Entropy.draw (Tape.mk (Octets.zero 24).bytes) 24).1 = .ok (Octets.zero 24) := rfl
  have hsink : Sink.Healthy { stride := some 1 } := ⟨List.not_mem_nil, by decide, rfl, rfl⟩
  have hlimit : 1 ≤ (2 : UInt64).toNat := by decide
  have hsize : (2 : UInt64).toNat ≤ UInt32.size - 1 - chunkOverhead := by decide
  have htrailer : ([9] : Bytes).length ≤ (2 : UInt64).toNat := by decide
  obtain ⟨w, hstart, -, -, -, written, hwritten, hback⟩ :=
    bytes_come_back hdraw (.zero 32) { maxChunkLen := 2 } hlimit hsize htrailer hsink
      [[1, 2, 3], [], [4, 5]]
  exact ⟨hdraw, hlimit, hsize, htrailer, hsink, w, hstart, written, hwritten, hback⟩

end AeadStream.Frame
