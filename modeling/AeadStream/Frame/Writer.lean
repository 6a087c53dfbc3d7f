import AeadStream.Sink
import AeadStream.Stream

/-!
# Writing frames

On the wire a stream is its header and then one frame for each chunk: the length of the sealed
chunk in four bytes and the chunk itself. The last frame holds the final chunk, whose plaintext
is a trailer of the application's.
-/

namespace AeadStream.Frame

/-- The number of bytes in front of a chunk that give its length. -/
def lengthBytes : Nat := 4

/-- **The frame** of a sealed chunk. -/
def ofSealed (sealed : Bytes) : Bytes := beBytes lengthBytes sealed.length ++ sealed

/-- **A writer:** a sending stream and the sink that its frames go to. Bytes are cut by a limit of
the writer's own, beside the one of the stream. -/
structure Writer where
  stream : Stream
  sink : Sink
  /-- bytes that are written as one chunk -/
  maxChunkLen : UInt64

namespace Writer

/-- **Starting** a writer: a header is drawn and written. Without room for a single byte in a
chunk nothing could ever be written, so such settings are refused before anything else. -/
def start {ρ : Type} [Entropy ρ] (sink : Sink) (key : SessionKey) (source : ρ) (config : Config) :
    Outcome IoFault Sink Writer :=
  if config.maxChunkLen = 0 then
    ⟨.error .emptyChunks, sink, []⟩
  else
    let started := Stream.sender key source config
    match started.result with
    | .error fault => ⟨.error (.stream fault), sink, started.events⟩
    | .ok (header, stream) =>
      match sink.writeAll header.bytes with
      | (.error fault, sink) => ⟨.error fault, sink, started.events⟩
      | (.ok (), sink) =>
        ⟨.ok { stream, sink, maxChunkLen := config.maxChunkLen }, sink, started.events⟩

/-- **Writing a chunk** as one frame. The stream moves on before the length is known to fit into
its four bytes and before the sink took the frame. -/
def writeChunk (w : Writer) (data : Bytes) (tag : Tag) : Outcome IoFault Writer Unit :=
  let pushed := w.stream.push data tag []
  match pushed.result with
  | .error fault => ⟨.error (.stream fault), { w with stream := pushed.state }, pushed.events⟩
  | .ok sealed =>
    if UInt32.size ≤ sealed.length then
      ⟨.error (.stream (.tooLong data.length (UInt32.size - 1 - chunkOverhead))),
        { w with stream := pushed.state }, pushed.events⟩
    else
      match w.sink.writeAll (beBytes lengthBytes sealed.length) with
      | (.error fault, sink) =>
        ⟨.error fault, { w with stream := pushed.state, sink }, pushed.events⟩
      | (.ok (), sink) =>
        let (result, sink) := sink.writeAll sealed
        ⟨result, { w with stream := pushed.state, sink }, pushed.events⟩

/-- **Data too long for any frame:** what writing them comes to, from their length alone. -/
def writeOversized (w : Writer) (length : Nat) (tag : Tag) : Outcome IoFault Writer Unit :=
  match w.stream.phase with
  | .finalized => ⟨.error (.stream (.wrongPhase .finalized "push")), w, []⟩
  | .streaming =>
    let limit := w.stream.maxChunkLen.toNat
    if limit < length then ⟨.error (.stream (.tooLong length limit)), w, []⟩
    else
      let (advanced, events) := w.stream.advance tag
      ⟨.error (.stream (.tooLong length (UInt32.size - 1 - chunkOverhead))),
        { w with stream := advanced }, events⟩

/-- **Writing bytes** as far as they fit into one chunk: the number of bytes written. No chunk is
written for no bytes. -/
def write (w : Writer) (data : Bytes) : Outcome IoFault Writer Nat :=
  if data = [] then ⟨.ok 0, w, []⟩
  else
    let size := min data.length w.maxChunkLen.toNat
    let written := w.writeChunk (data.take size) .message
    ⟨written.result.map fun _ => size, written.state, written.events⟩

/-- **Writing all bytes,** in as many chunks as it takes. -/
def writeAll (w : Writer) (data : Bytes) : Outcome IoFault Writer Unit :=
  if _h : data = [] then ⟨.ok (), w, []⟩
  else
    let written := w.write data
    match written.result with
    | .error fault => ⟨.error fault, written.state, written.events⟩
    | .ok 0 => ⟨.error .writeZero, written.state, written.events⟩
    | .ok (size + 1) => (writeAll written.state (data.drop (size + 1))).after written.events
termination_by data.length
decreasing_by
  have := List.length_pos_iff.mpr _h
  simp only [List.length_drop]
  omega

/-- Makes sure that the frames so far have arrived. -/
def flush (w : Writer) : Outcome IoFault Writer Unit :=
  let (result, sink) := w.sink.flush
  ⟨result, { w with sink }, []⟩

/-- **Finishing:** the final chunk with its trailer is written and everything is flushed. -/
def finish (w : Writer) (trailer : Bytes) : Outcome IoFault Writer Unit :=
  let written := w.writeChunk trailer .final
  match written.result with
  | .error fault => ⟨.error fault, written.state, written.events⟩
  | .ok () => written.state.flush.after written.events

end Writer

end AeadStream.Frame
