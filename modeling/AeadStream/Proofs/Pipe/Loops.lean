import AeadStream.Proofs.Frame.Draining
import AeadStream.Proofs.Pipe.Encryption
import AeadStream.Proofs.Pipe.Verification
import AeadStream.Proofs.Rounds

/-!
# Loops that read end

Four loops read from a source: filling up a piece, passing over empty chunks, encrypting piece by
piece and decrypting chunk by chunk. Each is given here as what one of its rounds does, and each
ends with what the call it belongs to gives. A round that goes on has used something up: an
interruption or a byte, a frame of at least 21 bytes, or a whole piece.

* `Source.gatherRound`, `Source.fillEnds` — filling up;
* `Frame.Reader.readRound`, `Frame.Reader.readEnds` — reading bytes;
* `Pipe.chunkRound`, `Pipe.decryptEnds` — decrypting;
* `Pipe.pieceRound`, `Pipe.encryptEnds` — encrypting;
* `Pipe.reading_loops_end` — all of them.
-/

namespace AeadStream

/-! ## Filling up -/

namespace Source

variable {s s' : Source} {n : Nat} {got : Bytes}

/-- How often a source will be interrupted. -/
def interruptions (s : Source) : Nat := s.turns.count .interrupt

/-- Filling up leaves no more bytes than there were. -/
theorem length_rest_fill_le (s : Source) (n : Nat) : (s.fill n).2.rest.length ≤ s.rest.length := by
  have hrest := congrArg List.length (s.gather_append n)
  rw [List.length_append] at hrest
  have hsource : (s.fill n).2 = (s.gather n).source := by
    rw [fill]
    split
    · rfl
    · rfl
  rw [hsource]
  omega

/-- **A round of reading on:** a call, if there is not enough yet. It goes on after an interruption
and after at least one byte. -/
def gatherRound (state : Source × Nat × Bytes) : Round (Source × Nat × Bytes) Haul :=
  let (s, n, got) := state
  if n = 0 then .done ⟨got.reverse, none, s⟩
  else
    match s.read n with
    | (.interrupted, s') => .again (s', n, got)
    | (.failed fault, s') => .done ⟨got.reverse, some fault, s'⟩
    | (.bytes [], s') => .done ⟨got.reverse, none, s'⟩
    | (.bytes (b :: bs), s') => .again (s', n - (bs.length + 1), (b :: bs).reverse ++ got)

/-- Reading on is this loop. -/
theorem rounds_gatherOnto (s : Source) (n : Nat) (got : Bytes) :
    ∃ passed last, Rounds gatherRound (s, n, got) passed last (s.gatherOnto n got) := by
  fun_induction gatherOnto s n got with
  | case1 s got => exact ⟨[], _, .last rfl⟩
  | case2 s n got hn next hread ih =>
    obtain ⟨passed, last, hrounds⟩ := ih
    refine ⟨_, last, .onward ?_ hrounds⟩
    rw [gatherRound]
    simp only [if_neg hn, hread]
  | case3 s n got hn fault next hread =>
    refine ⟨[], _, .last ?_⟩
    rw [gatherRound]
    simp only [if_neg hn, hread]
  | case4 s n got hn next hread =>
    refine ⟨[], _, .last ?_⟩
    rw [gatherRound]
    simp only [if_neg hn, hread]
  | case5 s n got hn b bs next hread ih =>
    obtain ⟨passed, last, hrounds⟩ := ih
    refine ⟨_, last, .onward ?_ hrounds⟩
    rw [gatherRound]
    simp only [if_neg hn, hread]

theorem interruptions_give (s : Source) (n : Nat) :
    (s.give n).2.interruptions = s.interruptions := by
  rw [interruptions, turns_give, interruptions]

/-- An interruption is used up by a call that is interrupted, and by no other one. -/
theorem interruptions_read (s : Source) (n : Nat) :
    (s.read n).2.interruptions + (if (s.read n).1 = .interrupted then 1 else 0) =
      s.interruptions := by
  have hgive : ∀ (s : Source) (m : Nat), (s.give m).1 ≠ .interrupted := by
    intro s m h
    exact give_ne_interrupted (Prod.ext h rfl)
  rw [read]
  split
  · next turns hturns =>
    simp [interruptions, hturns]
  · next limit turns hturns =>
    rw [if_neg (hgive _ _), interruptions_give]
    simp [interruptions, hturns]
  · rw [if_neg (hgive _ _), interruptions_give]
    rfl

/-- **A round that goes on** used up an interruption or got some of the missing bytes. -/
theorem gatherRound_again {state : Source × Nat × Bytes}
    (h : gatherRound (s, n, got) = .again state) :
    state.2.1 + state.1.interruptions + 1 ≤ n + s.interruptions ∧
      state.2.2.length + state.2.1 = got.length + n := by
  have hkept := s.interruptions_read n
  rw [gatherRound] at h
  split at h
  · cases h
  · next hn =>
    split at h
    · next hread =>
      rw [hread, if_pos rfl] at hkept
      cases h
      exact ⟨by dsimp only at hkept ⊢; omega, rfl⟩
    · cases h
    · cases h
    · next b bs next hread =>
      have hle := (read_bytes hread).2.1
      rw [hread, if_neg nofun] at hkept
      cases h
      simp only [List.length_append, List.length_reverse, List.length_cons] at hkept hle ⊢
      omega

/-- **The last round** leaves the interruptions. If there is neither a fault nor enough, it got no
byte from its call. -/
theorem gatherRound_done {haul : Haul} (h : gatherRound (s, n, got) = .done haul) :
    haul.got.length = got.length ∧ haul.source.interruptions = s.interruptions ∧
      (haul.fault = none → n ≠ 0 → s.read n = (.bytes [], haul.source)) := by
  have hkept := s.interruptions_read n
  rw [gatherRound] at h
  split at h
  · next hn =>
    cases h
    exact ⟨List.length_reverse, rfl, fun _ hne => absurd hn hne⟩
  · split at h
    · cases h
    · next hread =>
      rw [hread, if_neg nofun] at hkept
      cases h
      exact ⟨List.length_reverse, hkept, nofun⟩
    · next hread =>
      rw [hread, if_neg nofun] at hkept
      cases h
      exact ⟨List.length_reverse, hkept, fun _ _ => hread⟩
    · cases h

/-- **Filling up ends:** there are no more rounds, and no more calls, than bytes that came,
interruptions that were met, and one. If fewer bytes came than were asked for, the last call gave
none, and on a steady source there is none left. -/
structure FillEnds (s : Source) (n : Nat) : Prop where
  rounds : ∃ passed last, Rounds gatherRound (s, n, []) passed last (s.gather n) ∧
    passed.length + 1 + (s.gather n).source.interruptions ≤
      (s.gather n).got.length + s.interruptions + 1 ∧
    ∀ got s', s.fill n = (.ok got, s') → got.length < n →
      last.1.read last.2.1 = (.bytes [], s') ∧ last.2.1 ≠ 0
  exhausted : ∀ got s', s.Steady → s.fill n = (.ok got, s') → got.length < n → s'.rest = []

/-- So it does on every source. -/
theorem fillEnds (s : Source) (n : Nat) : FillEnds s n where
  rounds := by
    obtain ⟨passed, ⟨s₁, m, got₁⟩, hrounds⟩ := s.rounds_gatherOnto n []
    obtain ⟨hgot, hkept, hnone⟩ := gatherRound_done hrounds.ended
    have hlength := hrounds.length_le (fun state => state.2.1 + state.1.interruptions) 1
      fun _ _ hround => (gatherRound_again hround).1
    -- what is there and what is missing are what was asked for
    have hsame := hrounds.keeps (fun state => state.2.2.length + state.2.1 = n)
      (fun _ _ hround hinv => (gatherRound_again hround).2.trans hinv) (Nat.zero_add n)
      (s₁, m, got₁) (List.mem_append_right _ (List.mem_singleton.mpr rfl))
    dsimp only at hlength hsame
    refine ⟨passed, _, hrounds, ?_, fun got s' hfill hlt => ?_⟩
    · rw [gather, hkept, hgot]
      omega
    · rw [fill, gather] at hfill
      split at hfill
      · cases hfill
      · next hfault =>
        cases hfill
        have hne : m ≠ 0 := by omega
        exact ⟨hnone hfault hne, hne⟩
  exhausted := by
    intro got s' hsteady hfill hlt
    obtain ⟨rfl, hrest, -⟩ := hsteady.fill hfill
    rw [hrest, List.drop_eq_nil_iff]
    rw [List.length_take] at hlt
    omega

end Source

/-! ## Reading bytes -/

namespace Frame.Reader

variable {r : Reader} {n : Nat} {log : List Event}

/-- **A round of reading bytes:** what is left of the buffer is handed out, or a chunk is read. It
goes on behind a chunk that is not the final one. -/
def readRound (n : Nat) (state : Reader × List Event) :
    Round (Reader × List Event) (Outcome IoFault Reader Bytes) :=
  let (r, log) := state
  if r.position < r.buffer.length then .done ⟨.ok (r.unread.take n), r.handedOver n, log⟩
  else
    let chunk := r.readChunk
    match chunk.result with
    | .error fault => .done ⟨.error fault, chunk.state, log ++ chunk.events⟩
    | .ok none => .done ⟨.ok [], chunk.state, log ++ chunk.events⟩
    | .ok (some (trailer, .final)) =>
      .done ⟨.ok [], { chunk.state with trailer := some trailer }, log ++ chunk.events⟩
    | .ok (some (plaintext, _)) => .again (chunk.state.holding plaintext, log ++ chunk.events)

/-- **A round that goes on** took a frame. -/
theorem readRound_again {state : Reader × List Event} (h : readRound n (r, log) = .again state) :
    state.1.source.rest.length + 21 ≤ r.source.rest.length := by
  rw [readRound] at h
  split at h
  · cases h
  · dsimp only at h
    split at h
    · cases h
    · cases h
    · cases h
    · next hresult =>
      have hlen := readChunk_ok hresult
      cases h
      simp only [source_holding, lengthBytes, chunkOverhead] at hlen ⊢
      omega

/-- Reading bytes is this loop, if any are asked for. -/
theorem rounds_read (hn : n ≠ 0) (r : Reader) (log : List Event) :
    ∃ passed last, Rounds (readRound n) (r, log) passed last ((r.read n).after log) := by
  fun_induction read r n generalizing log with
  | case1 r hzero => exact absurd hzero hn
  | case2 r hn hleft =>
    refine ⟨[], _, .last ?_⟩
    rw [readRound, if_pos hleft, Outcome.after, List.append_nil]
  | case3 r hn hleft chunk fault hresult =>
    refine ⟨[], _, .last ?_⟩
    rw [readRound, if_neg hleft]
    simp only [chunk, hresult]
    rfl
  | case4 r hn hleft chunk hresult =>
    refine ⟨[], _, .last ?_⟩
    rw [readRound, if_neg hleft]
    simp only [chunk, hresult]
    rfl
  | case5 r hn hleft chunk trailer hresult =>
    refine ⟨[], _, .last ?_⟩
    rw [readRound, if_neg hleft]
    simp only [chunk, hresult]
    rfl
  | case6 r hn hleft chunk plaintext tag htag hresult ih =>
    obtain ⟨passed, last, hrounds⟩ := ih (log ++ chunk.events)
    rw [← Outcome.after_after] at hrounds
    refine ⟨_, last, .onward ?_ hrounds⟩
    rw [readRound, if_neg hleft]
    simp only [chunk, hresult]

/-- **Reading bytes ends:** each round that goes on takes at least 21 bytes from the source. So
there are no more rounds, and no more chunks that are read, than the bytes that are left hold frames
of this size, and one. If no bytes are asked for, there is no round. -/
structure ReadEnds (r : Reader) (n : Nat) : Prop where
  progress : ∀ log state, readRound n (r, log) = .again state →
    state.1.source.rest.length + 21 ≤ r.source.rest.length
  rounds : n ≠ 0 → ∃ passed last, Rounds (readRound n) (r, []) passed last (r.read n) ∧
    passed.length + 1 ≤ r.source.rest.length / 21 + 1
  unasked : n = 0 → r.read n = ⟨.ok [], r, []⟩

/-- So it does from every reader. -/
theorem readEnds (r : Reader) (n : Nat) : ReadEnds r n where
  progress := fun _ _ => readRound_again
  rounds := by
    intro hn
    obtain ⟨passed, last, hrounds⟩ := rounds_read hn r []
    rw [Outcome.after_nil] at hrounds
    have hlength := hrounds.length_le (fun state => state.1.source.rest.length) 21
      fun _ _ => readRound_again
    dsimp only at hlength
    exact ⟨passed, last, hrounds, by omega⟩
  unasked := by
    rintro rfl
    exact r.read_zero

end Frame.Reader

namespace Pipe

open AeadStream.Frame

/-! ## Decrypting -/

section

variable {r : Reader} {sink : Sink} {done : List Bytes} {log : List Event}

/-- **A round of decrypting:** a chunk is read. It goes on once its plaintext was handed on, unless
it is the final one. -/
def chunkRound (state : Reader × Sink × List Bytes × List Event) :
    Round (Reader × Sink × List Bytes × List Event)
      (Outcome IoFault (Reader × Sink) (List Bytes × Bytes)) :=
  let (r, sink, done, log) := state
  let chunk := r.readChunk
  match chunk.result with
  | .error fault => .done ⟨.error fault, (chunk.state, sink), log ++ chunk.events⟩
  | .ok none => .done ⟨.error .noFinalChunk, (chunk.state, sink), log ++ chunk.events⟩
  | .ok (some (trailer, .final)) =>
    .done ⟨.ok (done, trailer), (chunk.state, sink), log ++ chunk.events⟩
  | .ok (some (plaintext, _)) =>
    match sink.writeAll plaintext with
    | (.error fault, sink) => .done ⟨.error fault, (chunk.state, sink), log ++ chunk.events⟩
    | (.ok (), sink) => .again (chunk.state, sink, plaintext :: done, log ++ chunk.events)

/-- **A round that goes on** took a frame, and the stream goes on. -/
theorem chunkRound_again {state : Reader × Sink × List Bytes × List Event}
    (h : chunkRound (r, sink, done, log) = .again state) :
    state.1.source.rest.length + 21 ≤ r.source.rest.length ∧
      state.1.isFinished = r.isFinished := by
  rw [chunkRound] at h
  split at h
  · cases h
  · cases h
  · cases h
  · next htag hresult =>
    have hlen := Reader.readChunk_ok hresult
    have htook := Reader.took_of_readChunk hresult
    split at h
    · cases h
    · cases h
      simp only [lengthBytes, chunkOverhead] at hlen ⊢
      refine ⟨by omega, ?_⟩
      simp only [Reader.isFinished, htook.stream, Stream.phase_advance htag]

/-- Decrypting is this loop. -/
theorem rounds_readPieces (r : Reader) (sink : Sink) (done : List Bytes) (log : List Event) :
    ∃ passed last,
      Rounds chunkRound (r, sink, done, log) passed last ((readPieces r sink done).after log) := by
  fun_induction readPieces r sink done generalizing log with
  | case1 r sink done chunk fault hresult =>
    refine ⟨[], _, .last ?_⟩
    rw [chunkRound]
    simp only [chunk, hresult]
    rfl
  | case2 r sink done chunk hresult =>
    refine ⟨[], _, .last ?_⟩
    rw [chunkRound]
    simp only [chunk, hresult]
    rfl
  | case3 r sink done chunk trailer hresult =>
    refine ⟨[], _, .last ?_⟩
    rw [chunkRound]
    simp only [chunk, hresult]
    rfl
  | case4 r sink done chunk plaintext tag htag hresult fault sink' hwrite =>
    refine ⟨[], _, .last ?_⟩
    rw [chunkRound]
    simp only [chunk, hresult, hwrite]
    rfl
  | case5 r sink done chunk plaintext tag htag hresult sink' hwrite ih =>
    obtain ⟨passed, last, hrounds⟩ := ih (log ++ chunk.events)
    rw [← Outcome.after_after] at hrounds
    refine ⟨_, last, .onward ?_ hrounds⟩
    rw [chunkRound]
    simp only [chunk, hresult, hwrite]

/-- **Decrypting ends** after no more rounds than the bytes that are left hold frames of 21 bytes,
and one. It never finds that there is no chunk left, unless its reader was at its end before. -/
structure DecryptEnds (r : Reader) (sink : Sink) : Prop where
  rounds : ∃ passed last,
    Rounds chunkRound (r, sink, [], []) passed last (readPieces r sink []) ∧
    passed.length + 1 ≤ r.source.rest.length / 21 + 1 ∧
    (r.isFinished = false → ∀ state ∈ passed ++ [last], state.1.readChunk.result ≠ .ok none)

/-- So it does from every reader. -/
theorem decryptEnds (r : Reader) (sink : Sink) : DecryptEnds r sink := by
  obtain ⟨passed, last, hrounds⟩ := rounds_readPieces r sink [] []
  rw [Outcome.after_nil] at hrounds
  have hlength := hrounds.length_le (fun state => state.1.source.rest.length) 21
    fun _ _ hround => (chunkRound_again hround).1
  dsimp only at hlength
  refine ⟨passed, last, hrounds, by omega, fun hgoing state hmem hnone => ?_⟩
  have hstill := hrounds.keeps (fun state => state.1.isFinished = false)
    (fun _ _ hround hinv => (chunkRound_again hround).2.trans hinv) hgoing state hmem
  rw [(Reader.readChunk_none hnone).1] at hstill
  cases hstill

end

/-! ## Encrypting -/

section

variable {size : Nat} {source : Source} {w : Writer} {done : List Bytes} {log : List Event}

/-- **A round of encrypting:** a piece is filled up and written as a chunk. It goes on behind a
whole one. -/
def pieceRound (size : Nat) (state : Source × Writer × List Bytes × List Event) :
    Round (Source × Writer × List Bytes × List Event)
      (Outcome IoFault (Source × Writer) (List Bytes)) :=
  let (source, w, done, log) := state
  match source.fill size with
  | (.error fault, source) => .done ⟨.error fault, (source, w), log⟩
  | (.ok [], source) => .done ⟨.ok done, (source, w), log⟩
  | (.ok (b :: bs), source) =>
    let written := w.writeChunk (b :: bs) .message
    match written.result with
    | .error fault => .done ⟨.error fault, (source, written.state), log ++ written.events⟩
    | .ok () =>
      if (b :: bs).length < size then
        .done ⟨.ok ((b :: bs) :: done), (source, written.state), log ++ written.events⟩
      else .again (source, written.state, (b :: bs) :: done, log ++ written.events)

/-- **A round that goes on** took a whole piece. -/
theorem pieceRound_again {state : Source × Writer × List Bytes × List Event}
    (h : pieceRound size (source, w, done, log) = .again state) :
    state.1.rest.length + size ≤ source.rest.length := by
  rw [pieceRound] at h
  dsimp only at h
  split at h
  · cases h
  · cases h
  · next hfill =>
    have hrest := congrArg List.length (Source.fill_ok hfill)
    rw [List.length_append] at hrest
    split at h
    · cases h
    · split at h
      · cases h
      · cases h
        dsimp only
        omega

/-- The last round leaves no more bytes than it found. -/
theorem pieceRound_done {o : Outcome IoFault (Source × Writer) (List Bytes)}
    (h : pieceRound size (source, w, done, log) = .done o) :
    o.state.1.rest.length ≤ source.rest.length := by
  have hfill := source.length_rest_fill_le size
  rw [pieceRound] at h
  dsimp only at h
  split at h
  · next hread =>
    rw [hread] at hfill
    cases h
    exact hfill
  · next hread =>
    rw [hread] at hfill
    cases h
    exact hfill
  · next hread =>
    rw [hread] at hfill
    split at h
    · cases h
      exact hfill
    · split at h
      · cases h
        exact hfill
      · cases h

/-- Encrypting is this loop. -/
theorem rounds_writePieces (source : Source) (w : Writer) (done : List Bytes) (log : List Event) :
    ∃ passed last, Rounds (pieceRound size) (source, w, done, log) passed last
      ((writePieces size source w done).after log) := by
  fun_induction writePieces size source w done generalizing log with
  | case1 source w done fault source' hfill =>
    refine ⟨[], _, .last ?_⟩
    rw [pieceRound, hfill, Outcome.after, List.append_nil]
  | case2 source w done source' hfill =>
    refine ⟨[], _, .last ?_⟩
    rw [pieceRound, hfill, Outcome.after, List.append_nil]
  | case3 source w done b bs source' hfill written fault hresult =>
    refine ⟨[], _, .last ?_⟩
    rw [pieceRound, hfill]
    simp only [written, hresult]
    rfl
  | case4 source w done b bs source' hfill written hresult hshort =>
    refine ⟨[], _, .last ?_⟩
    rw [pieceRound, hfill]
    simp only [written, hresult, if_pos hshort]
    rfl
  | case5 source w done b bs source' hfill written hresult hshort ih =>
    obtain ⟨passed, last, hrounds⟩ := ih (log ++ written.events)
    rw [← Outcome.after_after] at hrounds
    refine ⟨_, last, .onward ?_ hrounds⟩
    rw [pieceRound, hfill]
    simp only [written, hresult, if_neg hshort]

/-- How many bytes encrypting takes from its source. -/
def taken (size : Nat) (source : Source) (w : Writer) : Nat :=
  source.rest.length - (writePieces size source w []).state.1.rest.length

/-- **Encrypting ends** after no more rounds than the bytes that it takes hold whole pieces, and
one. If it succeeds, these bytes are the plaintext. -/
structure EncryptEnds (size : Nat) (source : Source) (w : Writer) : Prop where
  rounds : ∃ passed last,
    Rounds (pieceRound size) (source, w, [], []) passed last (writePieces size source w []) ∧
    passed.length + 1 ≤ taken size source w / size + 1
  whole : ∀ written, (writePieces size source w []).result = .ok written →
    written.reverse.flatten.length = taken size source w

/-- So it does on every source and with every writer. -/
theorem encryptEnds (hsize : size ≠ 0) (source : Source) (w : Writer) :
    EncryptEnds size source w where
  rounds := by
    obtain ⟨passed, last, hrounds⟩ := rounds_writePieces source w [] []
    rw [Outcome.after_nil] at hrounds
    have hlength := hrounds.length_le (fun state => state.1.rest.length) size
      fun _ _ => pieceRound_again
    have hlast := pieceRound_done hrounds.ended
    refine ⟨passed, last, hrounds, Nat.succ_le_succ ?_⟩
    rw [Nat.le_div_iff_mul_le (Nat.pos_of_ne_zero hsize), taken]
    dsimp only at hlength hlast
    omega
  whole := by
    intro written hwritten
    obtain ⟨plaintext, rfl, hsent⟩ := sent_of_writePieces hsize hwritten
    rw [List.append_nil, List.reverse_reverse, flatten_pieces, taken, hsent.rest,
      List.length_append, Nat.add_sub_cancel]

end

/-! ## All loops -/

/-- **Loops that read end,** whatever the source does, from any state of a reader and with any
writer. Reading bytes and decrypting take no more rounds than the bytes that are left hold frames of
21 bytes, and one, however many chunks are empty. A reader that decrypting begins with is not at its
end, so that there is no chunk left is never found. Filling up takes no more calls than bytes come
and interruptions are met, and one, and fewer bytes than were asked for come only at the end of the
source. So encrypting takes no more rounds than the plaintext holds whole pieces, and one. -/
theorem reading_loops_end :
    (∀ (r : Reader) (n : Nat), r.ReadEnds n) ∧
    (∀ (r : Reader) (sink : Sink), DecryptEnds r sink) ∧
    (∀ {source : Source} {key : SessionKey} {config : Config} {r : Reader},
      (Reader.start source key config).result = .ok r → r.isFinished = false) ∧
    (∀ (s : Source) (n : Nat), s.FillEnds n) ∧
    ∀ (chunkSize : Nat) (source : Source) (w : Writer),
      EncryptEnds (max chunkSize 1) source w :=
  ⟨Reader.readEnds, decryptEnds, fun hstart => (Reader.not_finished_of_start hstart).1,
    Source.fillEnds, fun chunkSize => encryptEnds (max_one_ne_zero chunkSize)⟩

/-! ## Three bytes -/

/-- There is a reader that has an empty chunk, a byte and a trailer ahead, in 65 bytes. -/
theorem exists_reader_of_three_chunks :
    ∃ r, (Reader.start (.ofBytes ((Octets.zero 24).bytes ++ wire (.fresh (.zero 32) (.zero 24) {})
        [([], .push), ([1], .message), ([3], .final)])) (.zero 32) {}).result = .ok r ∧
      r.unread = [] ∧ r.source.rest.length = 65 ∧
      r.Ahead ([([], .push), ([1], .message)] ++ [([3], .final)]) [] none := by
  have hfit : AllFit (.fresh (.zero 32) (.zero 24) {})
      ([([], .push), ([1], .message)] ++ [([3], .final)]) :=
    allFit_whole rfl (by decide) (by decide) (by decide)
  have hwhole := (Source.healthy_ofBytes ((Octets.zero 24).bytes ++
    (wire (.fresh (.zero 32) (.zero 24) {}) [([], .push), ([1], .message), ([3], .final)] ++
      []))).delivers rfl
  obtain ⟨source, hbegun, hahead⟩ := Reader.ahead_of_delivers hwhole hfit
  have hstart := congrArg Outcome.result hbegun
  rw [List.append_nil] at hstart
  have hlength := congrArg List.length hahead.delivers.healthy.2
  rw [List.append_nil, length_wire] at hlength
  exact ⟨_, hstart, rfl, hlength, hahead⟩

/-- A source of three bytes that is interrupted and then gives two of them. -/
def interrupted : Source := { rest := [1, 2, 3], turns := [.interrupt, .upTo 2] }

theorem healthy_interrupted : interrupted.Healthy := ⟨by decide, nofun, rfl⟩

/-- They are written in pairs by a writer that just began. -/
theorem writePieces_interrupted :
    ∃ w, (Writer.start {} (.zero 32) (Tape.mk (Octets.zero 24).bytes) {}).result = .ok w ∧
      (writePieces 2 interrupted w []).result = .ok [[3], [1, 2]] := by
  have hpairs : pieces 2 interrupted.rest = [[1, 2], [3]] := by
    have hfirst : pieces 2 ([1, 2] ++ [3] : Bytes) = [1, 2] :: pieces 2 [3] :=
      pieces_append (by decide) (rfl : ([1, 2] : Bytes).length = 2) [3]
    exact hfirst.trans (congrArg (_ :: ·) (pieces_eq_singleton (by decide) (by decide)))
  have hdata : AllFit (.fresh (.zero 32) (.zero 24) {}) (dataFrames 2 interrupted.rest) := by
    rw [dataFrames, hpairs]
    exact allFit_of_le rfl (by decide) (by decide)
  have hdraw : (Entropy.draw (Tape.mk (Octets.zero 24).bytes) 24).1 = .ok (Octets.zero 24) := rfl
  have hconfig : ({} : Config).maxChunkLen ≠ 0 := by decide
  obtain ⟨sink, hbegun, hsink, -⟩ :=
    Writer.start_of_draw hdraw hconfig Sink.healthy_empty (.zero 32)
  obtain ⟨_, _, _, hwritten, -⟩ :=
    writePieces_of_allFit (by decide) (w := .upon sink (.fresh (.zero 32) (.zero 24) {})) []
      (healthy_interrupted.delivers rfl) hsink hdata
  refine ⟨_, hbegun, ?_⟩
  rw [hwritten, hpairs]
  rfl

/-- An empty chunk, a byte and a trailer are behind the header that a reader took. Asked for five
bytes it passes over the empty chunk and gives the one byte, and decrypting reads all three chunks.
Three bytes that come in two pieces behind an interruption are filled up, and encrypted in pairs. -/
theorem reading_loops_end_on_three_bytes :
    ∃ (r : Reader) (s' : Source) (w : Writer),
      (Reader.start (.ofBytes ((Octets.zero 24).bytes ++ wire (.fresh (.zero 32) (.zero 24) {})
        [([], .push), ([1], .message), ([3], .final)])) (.zero 32) {}).result = .ok r ∧
      r.isFinished = false ∧ (r.read 5).result = .ok [1] ∧
      (∃ passed last, Rounds (Reader.readRound 5) (r, []) passed last (r.read 5) ∧
        passed.length + 1 ≤ 65 / 21 + 1) ∧
      (readPieces r {} []).result = .ok ([[1], []], [3]) ∧
      (∃ passed last, Rounds chunkRound (r, {}, [], []) passed last (readPieces r {} []) ∧
        passed.length + 1 ≤ 65 / 21 + 1 ∧
        ∀ state ∈ passed ++ [last], state.1.readChunk.result ≠ .ok none) ∧
      Source.Steady { rest := [1, 2, 3], turns := [.interrupt, .upTo 2] } ∧
      Source.fill { rest := [1, 2, 3], turns := [.interrupt, .upTo 2] } 5 = (.ok [1, 2, 3], s') ∧
      s'.rest = [] ∧
      (Writer.start {} (.zero 32) (Tape.mk (Octets.zero 24).bytes) {}).result = .ok w ∧
      (writePieces 2 { rest := [1, 2, 3], turns := [.interrupt, .upTo 2] } w []).result =
        .ok [[3], [1, 2]] ∧
      ∃ passed last, Rounds (pieceRound 2)
          ({ rest := [1, 2, 3], turns := [.interrupt, .upTo 2] }, w, [], []) passed last
          (writePieces 2 { rest := [1, 2, 3], turns := [.interrupt, .upTo 2] } w []) ∧
        passed.length + 1 ≤ 3 / 2 + 1 := by
  obtain ⟨hreads, hdecrypts, hbegins, hfills, hencrypts⟩ := reading_loops_end
  obtain ⟨r, hstart, hunread, hlength, hahead⟩ := exists_reader_of_three_chunks
  have hgoing := hbegins hstart
  -- the empty chunk is passed over, and the next one is read
  obtain ⟨r', events', hpassed, hunread', hahead'⟩ :=
    hahead.read_empty (n := 5) (by decide) hunread (by decide)
  have hbytes : (r.read 5).result = .ok [1] := by
    rw [hpassed, Outcome.result_after]
    exact (hahead'.read_data (by decide) hunread' (by decide) (by decide)).1
  obtain ⟨passed, last, hrounds, hcount⟩ := (hreads r 5).rounds (by decide)
  rw [hlength] at hcount
  -- decrypting reads all three
  obtain ⟨stop, sink, events, -, hlast, -, -, hpieces⟩ :=
    readPieces_of_ahead (by decide) [([3], .final)] [] hahead Sink.healthy_empty
  obtain ⟨_, hreadLast, -, -⟩ := hlast.readChunk
  have hread : (readPieces r {} []).result = .ok ([[1], []], [3]) := by
    rw [hpieces, readPieces_final hreadLast]
    rfl
  obtain ⟨passed', last', hrounds', hcount', hmore⟩ := (hdecrypts r {}).rounds
  rw [hlength] at hcount'
  -- encrypting takes two pieces
  obtain ⟨w, hwriter, hresult⟩ := writePieces_interrupted
  obtain ⟨⟨passed₃, last₃, hrounds₃, hcount₃⟩, hwhole⟩ := hencrypts 2 interrupted w
  rw [← hwhole _ hresult] at hcount₃
  -- filling up goes on to the end
  have hsteady : interrupted.Steady :=
    ⟨fun _ => healthy_interrupted.turns, fun _ => healthy_interrupted.stride⟩
  obtain ⟨s', hfill, -⟩ := (healthy_interrupted.delivers rfl).fill 5
  exact ⟨r, s', w, hstart, hgoing, hbytes, ⟨passed, last, hrounds, hcount⟩, hread,
    ⟨passed', last', hrounds', hcount', hmore hgoing⟩, hsteady, hfill,
    (hfills _ _).exhausted _ _ hsteady hfill (by decide), hwriter, hresult, passed₃, last₃,
    hrounds₃, hcount₃⟩

end Pipe

end AeadStream
