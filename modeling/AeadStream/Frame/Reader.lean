import AeadStream.Frame.Writer
import AeadStream.Source

/-!
# Reading frames

The reverse of writing frames: the header is read first, then frame after frame until the final
chunk went through. That the bytes run out before it is a fault, so a stream cannot be cut short
without notice, and nothing behind it is read.

* `readChunk_ok` — each chunk that is read takes at least 21 bytes from the source, so reading
  comes to an end.
-/

namespace AeadStream.Frame

/-- **A reader:** a source of frames, the stream that receives them, and what was received but
not handed over yet. The reader checks lengths against a limit of its own, beside the one of the
stream. -/
structure Reader where
  source : Source
  stream : Stream
  /-- the longest sealed chunk that is taken from the source -/
  maxSealedLen : Nat
  /-- plaintext of the chunk that bytes are read from -/
  buffer : Bytes := []
  /-- how many of these bytes were handed over -/
  position : Nat := 0
  /-- plaintext of the final chunk, once reading bytes arrived at it -/
  trailer : Option Bytes := none

namespace Reader

/-- What was received but not handed over yet. -/
def unread (r : Reader) : Bytes := r.buffer.drop r.position

/-- The reader once the given plaintext was received. -/
def holding (r : Reader) (plaintext : Bytes) : Reader :=
  { r with buffer := plaintext, position := 0 }

/-- The reader once `n` bytes were handed over, or all that there are. -/
def handedOver (r : Reader) (n : Nat) : Reader :=
  { r with position := r.position + min r.unread.length n }

/-- There is something left to hand over as long as the position is within the buffer. -/
theorem position_lt_iff {r : Reader} : r.position < r.buffer.length ↔ r.unread ≠ [] := by
  rw [unread, ne_eq, List.drop_eq_nil_iff, Nat.not_le]

@[simp] theorem unread_holding (r : Reader) (plaintext : Bytes) :
    (r.holding plaintext).unread = plaintext := rfl

@[simp] theorem stream_holding (r : Reader) (plaintext : Bytes) :
    (r.holding plaintext).stream = r.stream := rfl

@[simp] theorem source_holding (r : Reader) (plaintext : Bytes) :
    (r.holding plaintext).source = r.source := rfl

@[simp] theorem stream_handedOver (r : Reader) (n : Nat) : (r.handedOver n).stream = r.stream := rfl

@[simp] theorem unread_handedOver (r : Reader) (n : Nat) :
    (r.handedOver n).unread = r.unread.drop n := by
  rw [unread, handedOver, unread, ← List.drop_drop, ← unread]
  rcases Nat.le_total r.unread.length n with hle | hle
  · rw [Nat.min_eq_left hle, List.drop_length, List.drop_eq_nil_iff.mpr hle]
  · rw [Nat.min_eq_right hle]

@[simp] theorem handedOver_zero (r : Reader) : r.handedOver 0 = r := by
  rw [handedOver, Nat.min_zero, Nat.add_zero]

/-- Nothing is handed over where nothing is left. -/
theorem handedOver_of_unread {r : Reader} (h : r.unread = []) (n : Nat) : r.handedOver n = r := by
  rw [handedOver, h, List.length_nil, Nat.zero_min, Nat.add_zero]

/-- **Starting** a reader: the header is read. -/
def start (source : Source) (key : SessionKey) (config : Config) :
    Outcome IoFault Source Reader :=
  match source.readExact 24 with
  | (.error fault, source) => ⟨.error fault, source, []⟩
  | (.ok header, source) =>
    match Stream.receiver key header config with
    | .error fault => ⟨.error (.stream fault), source, []⟩
    | .ok stream =>
      ⟨.ok { source, stream, maxSealedLen := Config.sealedLimit config.maxChunkLen }, source,
        stream.begun⟩

/-- The final chunk went through. -/
def isFinished (r : Reader) : Bool := r.stream.phase = .finalized

/-- **Reading a chunk:** its plaintext and tag, or nothing once the final chunk was read. The
length of a frame is checked before its chunk is read. -/
def readChunk (r : Reader) : Outcome IoFault Reader (Option (Bytes × Tag)) :=
  if r.isFinished then ⟨.ok none, r, []⟩
  else
    match r.source.readExact lengthBytes with
    | (.error fault, source) => ⟨.error fault.insideStream, { r with source }, []⟩
    | (.ok written, source) =>
      let length := natOfBe written
      if length < chunkOverhead ∨ r.maxSealedLen < length then
        ⟨.error (.stream (.malformedChunk length)), { r with source }, []⟩
      else
        match source.readExact length with
        | (.error fault, source) => ⟨.error fault.insideStream, { r with source }, []⟩
        | (.ok sealed, source) =>
          let pulled := r.stream.pull sealed []
          ⟨(pulled.result.map some).mapError .stream,
            { r with source, stream := pulled.state }, pulled.events⟩

/-- Reading a chunk changes nothing but the source and the stream. -/
theorem state_readChunk (r : Reader) :
    r.readChunk.state =
      { r with source := r.readChunk.state.source, stream := r.readChunk.state.stream } := by
  unfold readChunk
  split
  · rfl
  · split
    · rfl
    · dsimp only
      split
      · rfl
      · split <;> rfl

@[simp] theorem maxSealedLen_readChunk (r : Reader) :
    r.readChunk.state.maxSealedLen = r.maxSealedLen := by
  rw [state_readChunk]

@[simp] theorem unread_readChunk (r : Reader) : r.readChunk.state.unread = r.unread := by
  rw [state_readChunk]
  rfl

@[simp] theorem trailer_readChunk (r : Reader) : r.readChunk.state.trailer = r.trailer := by
  rw [state_readChunk]

/-- There is no chunk left only once the final chunk was read, and then nothing changes. -/
theorem readChunk_none {r : Reader} (h : r.readChunk.result = .ok none) :
    r.isFinished = true ∧ r.readChunk.state = r := by
  unfold readChunk at h ⊢
  split
  · rename_i hf; exact ⟨hf, rfl⟩
  · rename_i hf
    rw [if_neg hf] at h
    split at h
    · exact absurd h nofun
    · dsimp only at h
      split at h
      · exact absurd h nofun
      · split at h
        · exact absurd h nofun
        · rename_i sealed _ _
          cases hr : (r.stream.pull sealed []).result with
          | error fault => rw [hr] at h; exact absurd h nofun
          | ok chunk => rw [hr] at h; exact absurd h nofun

/-- A chunk that was read took its frame from the source: the four bytes of the length, the
seventeen of the overhead, and the plaintext. -/
theorem readChunk_ok {r : Reader} {plaintext : Bytes} {tag : Tag}
    (h : r.readChunk.result = .ok (some (plaintext, tag))) :
    r.readChunk.state.source.rest.length + (lengthBytes + chunkOverhead + plaintext.length) ≤
      r.source.rest.length := by
  generalize ho : r.readChunk = o at h
  unfold readChunk at ho
  split at ho
  · subst ho; exact absurd h nofun
  · split at ho
    · subst ho; exact absurd h nofun
    · rename_i written s1 h1
      have e1 := Source.readExact_ok h1
      dsimp only at ho
      split at ho
      · subst ho; exact absurd h nofun
      · split at ho
        · subst ho; exact absurd h nofun
        · rename_i sealed s2 h2
          have e2 := Source.readExact_ok h2
          subst ho
          have hp : (r.stream.pull sealed []).result = .ok (plaintext, tag) := by
            cases hr : (r.stream.pull sealed []).result with
            | error fault => rw [hr] at h; exact absurd h nofun
            | ok chunk => rw [hr] at h; rw [Option.some.inj (Except.ok.inj h)]
          have hlen := Stream.length_of_pull hp
          rw [e1.1, e2.1]
          simp only [List.length_append]
          omega

/-- **Reading bytes:** at most `n` plaintext bytes, in the order of their chunks. No bytes mean
that the final chunk was read; its plaintext is kept as the trailer. Empty chunks are passed
over. -/
def read (r : Reader) (n : Nat) : Outcome IoFault Reader Bytes :=
  if n = 0 then ⟨.ok [], r, []⟩
  else if r.position < r.buffer.length then ⟨.ok (r.unread.take n), r.handedOver n, []⟩
  else
    let chunk := r.readChunk
    match _h : chunk.result with
    | .error fault => ⟨.error fault, chunk.state, chunk.events⟩
    | .ok none => ⟨.ok [], chunk.state, chunk.events⟩
    | .ok (some (trailer, .final)) =>
      ⟨.ok [], { chunk.state with trailer := some trailer }, chunk.events⟩
    | .ok (some (plaintext, _)) => (read (chunk.state.holding plaintext) n).after chunk.events
termination_by r.source.rest.length
decreasing_by
  have := readChunk_ok _h
  simp only [lengthBytes, chunkOverhead] at this
  show r.readChunk.state.source.rest.length < r.source.rest.length
  omega

/-- Bytes that were read came from the source or were received before. -/
theorem read_ok {r : Reader} {n : Nat} {got : Bytes} (h : (r.read n).result = .ok got) :
    (r.read n).state.source.rest.length + (r.read n).state.unread.length + got.length ≤
      r.source.rest.length + r.unread.length := by
  fun_induction read r n with
  | case1 => obtain rfl := Except.ok.inj h; simp
  | case2 r hn hb =>
    obtain rfl := Except.ok.inj h
    rw [unread_handedOver, List.length_drop, List.length_take]
    show r.source.rest.length + _ + _ ≤ _
    omega
  | case3 => exact absurd h nofun
  | case4 r hn hb chunk hc =>
    obtain rfl := Except.ok.inj h
    rw [(readChunk_none hc).2]
    exact Nat.le_refl _
  | case5 r hn hb chunk trailer hc =>
    obtain rfl := Except.ok.inj h
    have hlen := readChunk_ok hc
    have hunread := congrArg List.length r.unread_readChunk
    show r.readChunk.state.source.rest.length + r.readChunk.state.unread.length + 0 ≤ _
    omega
  | case6 r hn hb chunk plaintext tag htag hc ih =>
    have hlen := readChunk_ok hc
    have hrest := ih h
    rw [unread_holding] at hrest
    have hsource : (chunk.state.holding plaintext).source = r.readChunk.state.source := rfl
    rw [hsource] at hrest
    rw [Outcome.state_after]
    omega

/-- Reads on to the end, `size` bytes at a time; `got` was read before, the latest first. -/
def readOnto (r : Reader) (size : Nat) (got : List Bytes) :
    List Bytes × Outcome IoFault Reader Unit :=
  let piece := r.read size
  match _h : piece.result with
  | .error fault => (got, ⟨.error fault, piece.state, piece.events⟩)
  | .ok [] => (got, ⟨.ok (), piece.state, piece.events⟩)
  | .ok (b :: bs) =>
    let (all, rest) := readOnto piece.state size ((b :: bs) :: got)
    (all, rest.after piece.events)
termination_by r.source.rest.length + r.unread.length
decreasing_by
  have := read_ok _h
  simp only [List.length_cons] at this
  omega

/-- **Reading to the end:** everything that was read, also if a fault ended it. -/
def readToEnd (r : Reader) (size : Nat) : Bytes × Outcome IoFault Reader Unit :=
  let (pieces, outcome) := r.readOnto size []
  (pieces.reverse.flatten, outcome)

end Reader

end AeadStream.Frame
