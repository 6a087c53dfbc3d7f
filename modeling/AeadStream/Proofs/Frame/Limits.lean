import AeadStream.Frame.Reader
import AeadStream.Proofs.Stream.Step

/-!
# Limits on both layers

A writer and a reader have a limit of their own, and their stream has one too. Both are set from the
same settings, each in its own way, and both stay as they are whatever is called. So a frame that
the one layer lets through is not held up by the other for its length.

* `Writer.LimitsAgree`, `Reader.LimitsAgree` — the two limits agree;
* `Writer.limitsAgree_of_start`, `Reader.limitsAgree_of_start` — they do in the beginning;
* `Writer.LimitsAgree.congr`, `Reader.LimitsAgree.congr` — and wherever neither limit changes.
-/

namespace AeadStream

/-! ## Streams -/

namespace Stream

/-- Sending keeps the limit. -/
@[simp] theorem maxChunkLen_push (s : Stream) (plaintext : Bytes) (tag : Tag) (aad : Bytes) :
    (s.push plaintext tag aad).state.maxChunkLen = s.maxChunkLen := by
  have hpush := s.pushed plaintext tag aad
  generalize s.push plaintext tag aad = o at hpush
  cases hpush with
  | finalized => rfl
  | tooLong => rfl
  | emitted => exact maxChunkLen_advance ..

/-- So does receiving. -/
@[simp] theorem maxChunkLen_pull (s : Stream) (sealed aad : Bytes) :
    (s.pull sealed aad).state.maxChunkLen = s.maxChunkLen := by
  have hpull := s.pulled sealed aad
  generalize s.pull sealed aad = o at hpull
  cases hpull with
  | finalized => rfl
  | malformed => rfl
  | forged => rfl
  | unknownTag => rfl
  | accepted => exact maxChunkLen_advance ..

end Stream

namespace Frame

/-! ## Writers -/

namespace Writer

variable {w w' : Writer}

/-- **The limits of a writer agree:** it cuts bytes by the limit that its stream has. -/
def LimitsAgree (w : Writer) : Prop := w.maxChunkLen = w.stream.maxChunkLen

/-- The writer over a sink that sends a stream. -/
def upon (sink : Sink) (s : Stream) : Writer := { stream := s, sink, maxChunkLen := s.maxChunkLen }

@[simp] theorem sink_upon (sink : Sink) (s : Stream) : (upon sink s).sink = sink := rfl

@[simp] theorem stream_upon (sink : Sink) (s : Stream) : (upon sink s).stream = s := rfl

/-- They agree in the beginning. -/
theorem limitsAgree_of_start {ρ : Type} [Entropy ρ] {random : ρ} {config : Config} {sink : Sink}
    {key : SessionKey} (h : (start sink key random config).result = .ok w) :
    w.LimitsAgree ∧ w.maxChunkLen = config.maxChunkLen := by
  rw [start] at h
  split at h
  · cases h
  · cases hdraw : (Entropy.draw random 24).1 with
    | error reason =>
      simp only [Stream.sender_of_error hdraw] at h
      cases h
    | ok header =>
      simp only [Stream.sender_eq_fresh hdraw] at h
      split at h
      · cases h
      · obtain rfl := Except.ok.inj h
        exact ⟨rfl, rfl⟩

/-- They go on to agree where neither changes. -/
theorem LimitsAgree.congr (h : w.LimitsAgree) (hown : w'.maxChunkLen = w.maxChunkLen)
    (hstream : w'.stream.maxChunkLen = w.stream.maxChunkLen) : w'.LimitsAgree :=
  hown.trans (h.trans hstream.symm)

/-- Writing a chunk changes nothing but the stream and the sink. -/
theorem state_writeChunk (w : Writer) (data : Bytes) (tag : Tag) :
    (w.writeChunk data tag).state =
      { w with
        stream := (w.stream.push data tag []).state
        sink := (w.writeChunk data tag).state.sink } := by
  rw [writeChunk]
  dsimp only
  split
  · rfl
  · split
    · rfl
    · split
      · rfl
      · rfl

@[simp] theorem maxChunkLen_writeChunk (w : Writer) (data : Bytes) (tag : Tag) :
    (w.writeChunk data tag).state.maxChunkLen = w.maxChunkLen := by
  rw [state_writeChunk]

@[simp] theorem stream_maxChunkLen_writeChunk (w : Writer) (data : Bytes) (tag : Tag) :
    (w.writeChunk data tag).state.stream.maxChunkLen = w.stream.maxChunkLen := by
  rw [state_writeChunk]
  exact Stream.maxChunkLen_push ..

end Writer

/-! ## Readers -/

namespace Reader

variable {r r' : Reader}

/-- **The limits of a reader agree:** it takes the lengths that its stream does. -/
def LimitsAgree (r : Reader) : Prop := r.maxSealedLen = r.stream.sealedLimit

/-- The reader over a source that receives a stream. -/
def upon (source : Source) (s : Stream) : Reader :=
  { source, stream := s, maxSealedLen := s.sealedLimit }

@[simp] theorem source_upon (source : Source) (s : Stream) : (upon source s).source = source := rfl

theorem limitsAgree_upon (source : Source) (s : Stream) : (upon source s).LimitsAgree := rfl

/-- They agree in the beginning. -/
theorem limitsAgree_of_start {source : Source} {key : SessionKey} {config : Config}
    (h : (start source key config).result = .ok r) :
    r.LimitsAgree ∧ r.maxSealedLen = Config.sealedLimit config.maxChunkLen := by
  rw [start] at h
  split at h
  · cases h
  · next header _ _ =>
    split at h
    · cases h
    · next stream hreceiver =>
      obtain rfl := Except.ok.inj h
      rw [Stream.receiver] at hreceiver
      cases hkeys : StreamKeys.ofHeader key header with
      | error fault =>
        rw [hkeys] at hreceiver
        cases hreceiver
      | ok keys =>
        rw [hkeys] at hreceiver
        obtain rfl := Except.ok.inj hreceiver
        exact ⟨rfl, rfl⟩

/-- They go on to agree where neither changes. -/
theorem LimitsAgree.congr (h : r.LimitsAgree) (hown : r'.maxSealedLen = r.maxSealedLen)
    (hstream : r'.stream.maxChunkLen = r.stream.maxChunkLen) : r'.LimitsAgree := by
  rw [LimitsAgree, hown, h, Stream.sealedLimit, Stream.sealedLimit, hstream]

/-- Reading a chunk keeps the limit of the stream. -/
@[simp] theorem maxChunkLen_readChunk (r : Reader) :
    r.readChunk.state.stream.maxChunkLen = r.stream.maxChunkLen := by
  rw [readChunk]
  split
  · rfl
  · split
    · rfl
    · dsimp only
      split
      · rfl
      · split
        · rfl
        · exact Stream.maxChunkLen_pull ..

/-- They agree once a chunk went through, wherever the source is then. -/
theorem LimitsAgree.advance (h : r.LimitsAgree) (source : Source) (tag : Tag) :
    LimitsAgree { r with source, stream := (r.stream.advance tag).1 } :=
  h.congr rfl (Stream.maxChunkLen_advance ..)

end Reader

end Frame

end AeadStream
