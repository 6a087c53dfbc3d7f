import AeadStream.Proofs.Frame.Reading

/-!
# Reading to the end in either way

A reader hands out its plaintext as bytes or as chunks. Read to the end as bytes, in pieces of any
sizes, it gives the plaintexts of the chunks one behind the other, ends as reading chunks ends, and
leaves the same stream and the same source. So reading bytes loses nothing and repeats nothing, and
a fault comes behind everything that was received before it.

* `readThrough`, `chunksThrough` — reading to the end as bytes and as chunks;
* `readThrough_eq` — the one in terms of the other, for any reader;
* `bytes_are_those_of_chunks` — both on a reader that begins.
-/

namespace AeadStream.Frame.Reader

/-! ## Reading to the end -/

/-- **Reading bytes to the end,** the sizes being those of the single reads: everything that was
read, also if a fault ended it. -/
def readThrough (r : Reader) (sizes : Nat → Nat) : Bytes × Outcome IoFault Reader Unit :=
  let piece := r.read (sizes 0)
  match _h : piece.result with
  | .error fault => ([], ⟨.error fault, piece.state, piece.events⟩)
  | .ok [] => ([], ⟨.ok (), piece.state, piece.events⟩)
  | .ok (b :: bs) =>
    let (later, rest) := readThrough piece.state fun i => sizes (i + 1)
    (b :: bs ++ later, rest.after piece.events)
termination_by r.source.rest.length + r.unread.length
decreasing_by
  have := read_ok _h
  simp only [List.length_cons] at this
  omega

/-- **Reading chunks to the end:** the chunks of data and the plaintext of the final chunk, or the
chunks before a fault. -/
def chunksThrough (r : Reader) : List (Bytes × Tag) × Outcome IoFault Reader (Option Bytes) :=
  let chunk := r.readChunk
  match _h : chunk.result with
  | .error fault => ([], ⟨.error fault, chunk.state, chunk.events⟩)
  | .ok none => ([], ⟨.ok none, chunk.state, chunk.events⟩)
  | .ok (some (trailer, .final)) => ([], ⟨.ok (some trailer), chunk.state, chunk.events⟩)
  | .ok (some (plaintext, tag)) =>
    let (later, rest) := chunksThrough chunk.state
    ((plaintext, tag) :: later, rest.after chunk.events)
termination_by r.source.rest.length
decreasing_by
  have := readChunk_ok _h
  simp only [lengthBytes, chunkOverhead] at this
  omega

variable {r r' q : Reader} {n : Nat} {sizes : Nat → Nat} {events : List Event} {fault : IoFault}
  {plaintext got : Bytes} {tag : Tag}

/-! ## One chunk -/

/-- **Reading chunks goes** by what the next chunk is. -/
theorem chunksThrough_eq (r : Reader) :
    r.chunksThrough =
      match r.readChunk with
      | ⟨.error fault, r', events⟩ => ([], ⟨.error fault, r', events⟩)
      | ⟨.ok none, r', events⟩ => ([], ⟨.ok none, r', events⟩)
      | ⟨.ok (some (plaintext, tag)), r', events⟩ =>
        if tag = .final then ([], ⟨.ok (some plaintext), r', events⟩)
        else ((plaintext, tag) :: r'.chunksThrough.1, r'.chunksThrough.2.after events) := by
  rw [chunksThrough]
  dsimp only
  split
  · next h => rw [Outcome.eq_of_result h]
  · next h => rw [Outcome.eq_of_result h]
  · next h =>
    rw [Outcome.eq_of_result h]
    exact (if_pos rfl).symm
  · next htag h =>
    rw [Outcome.eq_of_result h]
    exact (if_neg htag).symm

/-- A fault ends the reading of chunks. -/
theorem chunksThrough_of_error (hread : r.readChunk = ⟨.error fault, r', events⟩) :
    r.chunksThrough = ([], ⟨.error fault, r', events⟩) := by
  rw [chunksThrough_eq, hread]

/-- There is nothing to read behind the end. -/
theorem chunksThrough_of_finished (h : r.isFinished = true) :
    r.chunksThrough = ([], ⟨.ok none, r, []⟩) := by
  rw [chunksThrough_eq, readChunk_of_finished h]

/-- The final chunk ends the reading of chunks. -/
theorem chunksThrough_of_final
    (hread : r.readChunk = ⟨.ok (some (plaintext, .final)), r', events⟩) :
    r.chunksThrough = ([], ⟨.ok (some plaintext), r', events⟩) := by
  rw [chunksThrough_eq, hread]
  exact if_pos rfl

/-- Behind a chunk of data the reading of chunks goes on. -/
theorem chunksThrough_of_data (htag : tag ≠ .final)
    (hread : r.readChunk = ⟨.ok (some (plaintext, tag)), r', events⟩) :
    r.chunksThrough =
      ((plaintext, tag) :: r'.chunksThrough.1, r'.chunksThrough.2.after events) := by
  rw [chunksThrough_eq, hread]
  exact if_neg htag

/-- **Reading bytes goes** by what the next chunk is, if none are left to hand over. -/
theorem read_eq_of_empty (hn : n ≠ 0) (hunread : r.unread = []) :
    r.read n =
      match r.readChunk with
      | ⟨.error fault, r', events⟩ => ⟨.error fault, r', events⟩
      | ⟨.ok none, r', events⟩ => ⟨.ok [], r', events⟩
      | ⟨.ok (some (plaintext, tag)), r', events⟩ =>
        if tag = .final then ⟨.ok [], { r' with trailer := some plaintext }, events⟩
        else (read (r'.holding plaintext) n).after events := by
  rw [read, if_neg hn, if_neg (mt position_lt_iff.mp (Classical.not_not.mpr hunread))]
  dsimp only
  split
  · next h => rw [Outcome.eq_of_result h]
  · next h => rw [Outcome.eq_of_result h]
  · next h =>
    rw [Outcome.eq_of_result h]
    exact (if_pos rfl).symm
  · next htag h =>
    rw [Outcome.eq_of_result h]
    exact (if_neg htag).symm

/-- A fault comes out of reading bytes as it is. -/
theorem read_of_error (hn : n ≠ 0) (hunread : r.unread = [])
    (hread : r.readChunk = ⟨.error fault, r', events⟩) :
    r.read n = ⟨.error fault, r', events⟩ := by
  rw [read_eq_of_empty hn hunread, hread]

/-- The plaintext of the final chunk is kept as the trailer. -/
theorem read_of_final (hn : n ≠ 0) (hunread : r.unread = [])
    (hread : r.readChunk = ⟨.ok (some (plaintext, .final)), r', events⟩) :
    r.read n = ⟨.ok [], { r' with trailer := some plaintext }, events⟩ := by
  rw [read_eq_of_empty hn hunread, hread]
  exact if_pos rfl

/-- Behind a chunk of data bytes are read from its plaintext, or from what follows if it is
empty. -/
theorem read_of_data (hn : n ≠ 0) (hunread : r.unread = []) (htag : tag ≠ .final)
    (hread : r.readChunk = ⟨.ok (some (plaintext, tag)), r', events⟩) :
    r.read n = (read (r'.holding plaintext) n).after events := by
  rw [read_eq_of_empty hn hunread, hread]
  exact if_neg htag

/-- **Frames that are ahead** are read to the end, with nothing behind it. -/
theorem chunksThrough_of_ahead {frames : List (Bytes × Tag)} {trailer back : Bytes}
    {ending : Option IoFault} (hdata : ∀ f ∈ frames, f.2 ≠ .final) :
    ∀ {r : Reader}, r.Ahead (frames ++ [(trailer, .final)]) back ending →
      r.chunksThrough.1 = frames ∧ r.chunksThrough.2.result = .ok (some trailer) ∧
        r.chunksThrough.2.state.source.Delivers back ending := by
  induction frames with
  | nil =>
    intro r h
    obtain ⟨r', hread, -, hlater⟩ := h.readChunk
    rw [chunksThrough_of_final hread]
    exact ⟨rfl, rfl, hlater.behind⟩
  | cons f frames ih =>
    obtain ⟨htag, hlater⟩ := List.forall_mem_cons.mp hdata
    intro r h
    obtain ⟨r', hread, -, hnext⟩ := h.readChunk
    obtain ⟨hframes, hresult, hback⟩ := ih hlater hnext
    rw [chunksThrough_of_data htag hread, hframes]
    exact ⟨rfl, hresult, hback⟩

/-! ## One read -/

namespace Ahead

variable {frames : List (Bytes × Tag)} {back : Bytes} {ending : Option IoFault}

/-- Bytes that are left are handed over before. -/
theorem read_unread (h : r.Ahead frames back ending) (hn : n ≠ 0) (hunread : r.unread ≠ []) :
    (r.read n).result = .ok (r.unread.take n) ∧ (r.read n).state.unread = r.unread.drop n ∧
      (r.read n).state.Ahead frames back ending := by
  rw [read_of_unread hn hunread]
  exact ⟨rfl, unread_handedOver .., h.limits, h.fits, h.delivers⟩

/-- With none left to hand over, bytes are read from the chunk that is ahead. -/
theorem read_data (h : r.Ahead ((plaintext, tag) :: frames) back ending) (hn : n ≠ 0)
    (hunread : r.unread = []) (htag : tag ≠ .final) (hne : plaintext ≠ []) :
    (r.read n).result = .ok (plaintext.take n) ∧ (r.read n).state.unread = plaintext.drop n ∧
      (r.read n).state.Ahead frames back ending := by
  obtain ⟨r', hread, -, hlater⟩ := h.readChunk
  rw [read_of_data hn hunread htag hread]
  exact (hlater.holding plaintext).read_unread hn hne

/-- An empty chunk is passed over. -/
theorem read_empty (h : r.Ahead (([], tag) :: frames) back ending) (hn : n ≠ 0)
    (hunread : r.unread = []) (htag : tag ≠ .final) :
    ∃ r' events, r.read n = (read r' n).after events ∧ r'.unread = [] ∧
      r'.Ahead frames back ending := by
  obtain ⟨r', hread, -, hlater⟩ := h.readChunk
  exact ⟨r'.holding [], _, read_of_data hn hunread htag hread, rfl, hlater.holding []⟩

/-- At the final chunk there are no bytes, and its plaintext is kept as the trailer. -/
theorem read_final (h : r.Ahead ((plaintext, .final) :: frames) back ending) (hn : n ≠ 0)
    (hunread : r.unread = []) :
    (r.read n).result = .ok [] ∧ (r.read n).state.unread = [] ∧
      (r.read n).state.trailer = some plaintext ∧ (r.read n).state.isFinished = true := by
  obtain ⟨r', hread, hstream, -⟩ := h.readChunk
  have hkept := r.unread_readChunk
  rw [hread, hunread] at hkept
  rw [read_of_final hn hunread hread, isFinished, hstream]
  exact ⟨rfl, hkept, rfl, rfl⟩

end Ahead


/-- **Reading bytes to the end goes** by what the next read gives. -/
theorem readThrough_eq_of_read (r : Reader) (sizes : Nat → Nat) :
    r.readThrough sizes =
      match r.read (sizes 0) with
      | ⟨.error fault, r', events⟩ => ([], ⟨.error fault, r', events⟩)
      | ⟨.ok got, r', events⟩ =>
        if got = [] then ([], ⟨.ok (), r', events⟩)
        else (got ++ (r'.readThrough fun i => sizes (i + 1)).1,
          (r'.readThrough fun i => sizes (i + 1)).2.after events) := by
  rw [readThrough]
  dsimp only
  split
  · next h => rw [Outcome.eq_of_result h]
  · next h =>
    rw [Outcome.eq_of_result h]
    exact (if_pos rfl).symm
  · next h =>
    rw [Outcome.eq_of_result h]
    exact (if_neg (List.cons_ne_nil _ _)).symm

/-- A fault ends the reading of bytes. -/
theorem readThrough_of_error (sizes : Nat → Nat)
    (hread : r.read (sizes 0) = ⟨.error fault, r', events⟩) :
    r.readThrough sizes = ([], ⟨.error fault, r', events⟩) := by
  rw [readThrough_eq_of_read, hread]

/-- No bytes end the reading of bytes. -/
theorem readThrough_of_nil (sizes : Nat → Nat)
    (hread : r.read (sizes 0) = ⟨.ok [], r', events⟩) :
    r.readThrough sizes = ([], ⟨.ok (), r', events⟩) := by
  rw [readThrough_eq_of_read, hread]
  exact if_pos rfl

/-- Behind some bytes the reading goes on. -/
theorem readThrough_of_bytes (sizes : Nat → Nat) (hne : got ≠ [])
    (hread : r.read (sizes 0) = ⟨.ok got, r', events⟩) :
    r.readThrough sizes =
      (got ++ (r'.readThrough fun i => sizes (i + 1)).1,
        (r'.readThrough fun i => sizes (i + 1)).2.after events) := by
  rw [readThrough_eq_of_read, hread]
  exact if_neg hne

/-- If the next read goes as that of another reader, but for what is reported first, then so does
all reading. -/
theorem readThrough_after (hread : r.read (sizes 0) = (q.read (sizes 0)).after events) :
    r.readThrough sizes = ((q.readThrough sizes).1, (q.readThrough sizes).2.after events) := by
  rcases hother : q.read (sizes 0) with ⟨_ | got, q', later⟩
  · rw [hother] at hread
    rw [readThrough_of_error sizes hread, readThrough_of_error sizes hother]
    rfl
  · rw [hother] at hread
    by_cases hne : got = []
    · subst hne
      rw [readThrough_of_nil sizes hread, readThrough_of_nil sizes hother]
      rfl
    · rw [readThrough_of_bytes sizes hne hread, readThrough_of_bytes sizes hne hother]
      simp only [Outcome.after, List.append_assoc]

/-! ## Both ways -/

/-- **What becomes of the end** of reading chunks if bytes are read: the plaintext of the final
chunk is the trailer. -/
def asBytes (o : Outcome IoFault Reader (Option Bytes)) : Outcome IoFault Reader Unit :=
  match o.result with
  | .error fault => ⟨.error fault, o.state, o.events⟩
  | .ok none => ⟨.ok (), o.state, o.events⟩
  | .ok (some trailer) => ⟨.ok (), { o.state with trailer := some trailer }, o.events⟩

theorem asBytes_after (o : Outcome IoFault Reader (Option Bytes)) (events : List Event) :
    asBytes (o.after events) = (asBytes o).after events := by
  rcases o with ⟨_ | _ | _, _, _⟩ <;> rfl

/-- What is held does not matter for reading a chunk. -/
theorem readChunk_holding (r : Reader) (plaintext : Bytes) :
    (r.holding plaintext).readChunk = r.readChunk.mapState (·.holding plaintext) := by
  by_cases hend : r.isFinished = true
  · rw [readChunk_of_finished hend, readChunk_of_finished (r := r.holding plaintext) hend]
    rfl
  · have hend' : ¬(r.holding plaintext).isFinished = true := hend
    have hsource : (r.holding plaintext).source = r.source := rfl
    rw [readChunk, readChunk, if_neg hend, if_neg hend', hsource]
    rcases r.source.readExact lengthBytes with ⟨_ | written, source⟩
    · rfl
    · dsimp only
      by_cases hrange : natOfBe written < chunkOverhead ∨ r.maxSealedLen < natOfBe written
      · have hrange' : natOfBe written < chunkOverhead ∨
          (r.holding plaintext).maxSealedLen < natOfBe written := hrange
        rw [if_pos hrange, if_pos hrange']
        rfl
      · have hrange' : ¬(natOfBe written < chunkOverhead ∨
          (r.holding plaintext).maxSealedLen < natOfBe written) := hrange
        rw [if_neg hrange, if_neg hrange']
        rcases source.readExact (natOfBe written) with ⟨_ | sealed, source⟩
        · rfl
        · rfl

/-- **Bytes are read to the end** from any reader, in pieces of any sizes: first those that are left
to hand over and then those of the chunks. In the end nothing is left. -/
theorem readThrough_eq (r : Reader) (hsizes : ∀ i, sizes i ≠ 0) :
    (r.readThrough sizes).1 = r.unread ++ (r.holding []).chunksThrough.1.flatMap Prod.fst ∧
      (r.readThrough sizes).2.mapState (·.holding []) =
        asBytes (r.holding []).chunksThrough.2 := by
  -- each read takes from the source or from what is left
  induction hleft : r.source.rest.length + r.unread.length using Nat.strongRecOn
    generalizing r sizes with
  | ind left ih =>
    by_cases hunread : r.unread = []
    · have hheld := r.readChunk_holding []
      rw [hunread, List.nil_append]
      rcases hread : r.readChunk with ⟨_ | _ | ⟨plaintext, tag⟩, r', events⟩
      · rw [hread] at hheld
        rw [readThrough_of_error sizes (read_of_error (hsizes 0) hunread hread),
          chunksThrough_of_error hheld]
        exact ⟨rfl, rfl⟩
      · have hfinished := (readChunk_none (r := r) (by rw [hread])).1
        rw [readThrough_of_nil sizes (read_of_finished hfinished hunread _),
          chunksThrough_of_finished (r := r.holding []) hfinished]
        exact ⟨rfl, rfl⟩
      · rw [hread] at hheld
        by_cases htag : tag = .final
        · subst htag
          rw [readThrough_of_nil sizes (read_of_final (hsizes 0) hunread hread),
            chunksThrough_of_final hheld]
          exact ⟨rfl, rfl⟩
        · have hresult : r.readChunk.result = .ok (some (plaintext, tag)) := by rw [hread]
          have hless := readChunk_ok hresult
          rw [hread] at hless
          simp only [lengthBytes, chunkOverhead] at hless
          have hmeasure : r'.source.rest.length + plaintext.length < left := by omega
          obtain ⟨hbytes, hend⟩ := ih _ hmeasure (r'.holding plaintext) hsizes rfl
          rw [readThrough_after (read_of_data (hsizes 0) hunread htag hread),
            chunksThrough_of_data htag hheld, List.flatMap_cons, asBytes_after]
          exact ⟨hbytes, congrArg (Outcome.after events) hend⟩
    · have hsome : r.unread.take (sizes 0) ≠ [] := fun htake =>
        (List.take_eq_nil_iff.mp htake).elim (hsizes 0) hunread
      have hpos := List.length_pos_iff.mpr hunread
      have hless : r.source.rest.length + (r.handedOver (sizes 0)).unread.length < left := by
        have hsize := hsizes 0
        rw [unread_handedOver, List.length_drop]
        omega
      obtain ⟨hbytes, hend⟩ := ih _ hless (r.handedOver (sizes 0)) (fun i => hsizes (i + 1)) rfl
      rw [readThrough_of_bytes sizes hsome (read_of_unread (hsizes 0) hunread)]
      refine ⟨?_, hend⟩
      rw [hbytes, unread_handedOver, ← List.append_assoc, List.take_append_drop]
      rfl

/-- Reading on with one size for all reads is a case of this. -/
theorem readOnto_eq (r : Reader) (size : Nat) (got : List Bytes) :
    (r.readOnto size got).1.reverse.flatten =
        got.reverse.flatten ++ (r.readThrough fun _ => size).1 ∧
      (r.readOnto size got).2 = (r.readThrough fun _ => size).2 := by
  fun_induction readOnto r size got with
  | case1 r got piece fault hresult =>
    have hread : r.read size = ⟨.error fault, piece.state, piece.events⟩ :=
      Outcome.eq_of_result hresult
    rw [readThrough_of_error (fun _ => size) hread]
    exact ⟨(List.append_nil _).symm, rfl⟩
  | case2 r got piece hresult =>
    have hread : r.read size = ⟨.ok [], piece.state, piece.events⟩ := Outcome.eq_of_result hresult
    rw [readThrough_of_nil (fun _ => size) hread]
    exact ⟨(List.append_nil _).symm, rfl⟩
  | case3 r got piece b bs hresult all rest hrest ih =>
    have hread : r.read size = ⟨.ok (b :: bs), piece.state, piece.events⟩ :=
      Outcome.eq_of_result hresult
    rw [hrest] at ih
    rw [readThrough_of_bytes (fun _ => size) (List.cons_ne_nil b bs) hread]
    refine ⟨?_, congrArg (Outcome.after piece.events) ih.2⟩
    rw [ih.1, List.reverse_cons, List.flatten_append, List.flatten_singleton, List.append_assoc]

/-- So is reading to the end. -/
theorem readToEnd_eq (r : Reader) (size : Nat) :
    r.readToEnd size = r.readThrough fun _ => size := by
  obtain ⟨hbytes, houtcome⟩ := r.readOnto_eq size []
  exact Prod.ext hbytes houtcome

/-! ## On a reader that begins -/

/-- No chunk of data is final. -/
theorem ne_final_of_mem_chunksThrough (r : Reader) :
    ∀ f ∈ r.chunksThrough.1, f.2 ≠ .final := by
  fun_induction chunksThrough r with
  | case1 => exact fun f hf => absurd hf List.not_mem_nil
  | case2 => exact fun f hf => absurd hf List.not_mem_nil
  | case3 => exact fun f hf => absurd hf List.not_mem_nil
  | case4 r chunk plaintext tag htag hresult later rest hrest ih =>
    rw [hrest] at ih
    exact List.forall_mem_cons.mpr ⟨htag, ih⟩

/-- Reading chunks ends with the final chunk or a fault, if the end is ahead. -/
theorem chunksThrough_ne_none (h : r.isFinished = false) :
    r.chunksThrough.2.result ≠ .ok none := by
  fun_induction chunksThrough r with
  | case1 => nofun
  | case2 r chunk hresult =>
    rw [(readChunk_none hresult).1] at h
    cases h
  | case3 => nofun
  | case4 r chunk plaintext tag htag hresult later rest hrest ih =>
    rw [hrest] at ih
    refine ih ?_
    rw [← h, isFinished, isFinished, (took_of_readChunk hresult).stream, Stream.phase_advance htag]

/-- **The same to the end:** the bytes that were read are those of the chunks, and reading them
ended as reading the chunks did. -/
structure SameToTheEnd (bytes : Bytes × Outcome IoFault Reader Unit)
    (chunks : List (Bytes × Tag) × Outcome IoFault Reader (Option Bytes)) : Prop where
  /-- the chunks are chunks of data, with a final chunk or a fault behind them -/
  data : (∀ f ∈ chunks.1, f.2 ≠ .final) ∧ chunks.2.result ≠ .ok none
  /-- their plaintexts are what was read, also if a fault ended it -/
  delivered : bytes.1 = chunks.1.flatMap Prod.fst
  /-- the bytes end at the final chunk, and its plaintext is the trailer -/
  ended : ∀ trailer, bytes.2.result = .ok () ∧ bytes.2.state.trailer = some trailer ↔
    chunks.2.result = .ok (some trailer)
  /-- the faults are the same -/
  failed : ∀ fault, bytes.2.result = .error fault ↔ chunks.2.result = .error fault
  /-- so are the streams behind them -/
  stream : bytes.2.state.stream = chunks.2.state.stream
  /-- and the places in the source -/
  source : bytes.2.state.source = chunks.2.state.source
  /-- and the reports -/
  events : bytes.2.events = chunks.2.events

/-- **The bytes are those of the chunks,** on any source and under any key, for all sizes of single
reads: a reader that is read to the end as bytes gives the plaintexts of the chunks that it gives
if it is read as chunks, with the trailer of the final chunk or with the same fault behind them. -/
theorem bytes_are_those_of_chunks {source : Source} {key : SessionKey} {config : Config}
    (hstart : (start source key config).result = .ok r) (hsizes : ∀ i, sizes i ≠ 0) :
    SameToTheEnd (r.readThrough sizes) r.chunksThrough := by
  obtain ⟨hfinished, -⟩ := not_finished_of_start hstart
  have hsame : r.holding [] = r := holding_of_start hstart
  have hdata := r.ne_final_of_mem_chunksThrough
  have hsettled := chunksThrough_ne_none hfinished
  obtain ⟨hbytes, hend⟩ := readThrough_eq r hsizes
  have hunread : r.unread = [] := by rw [← hsame, unread_holding]
  rw [hsame] at hbytes hend
  rw [hunread, List.nil_append] at hbytes
  generalize r.readThrough sizes = bytes at hbytes hend ⊢
  generalize r.chunksThrough = chunks at hbytes hend hdata hsettled ⊢
  obtain ⟨got, result, state, events⟩ := bytes
  obtain ⟨frames, result', state', events'⟩ := chunks
  obtain rfl : got = frames.flatMap Prod.fst := hbytes
  cases result' with
  | error fault =>
    simp only [asBytes, Outcome.mapState, Outcome.mk.injEq] at hend
    obtain ⟨rfl, rfl, rfl⟩ := hend
    refine ⟨⟨hdata, hsettled⟩, rfl, fun _ => ⟨nofun, nofun⟩, fun other => ?_, rfl, rfl, rfl⟩
    constructor
    · intro hfault
      exact congrArg Except.error (Except.error.inj hfault)
    · intro hfault
      exact congrArg Except.error (Except.error.inj hfault)
  | ok ended =>
    cases ended with
    | none => exact absurd rfl hsettled
    | some trailer =>
      simp only [asBytes, Outcome.mapState, Outcome.mk.injEq] at hend
      obtain ⟨rfl, hstate, rfl⟩ := hend
      have htrailer : state.trailer = some trailer := congrArg Reader.trailer hstate
      have hstream := congrArg Reader.stream hstate
      have hsource := congrArg Reader.source hstate
      refine ⟨⟨hdata, hsettled⟩, rfl, fun other => ?_, fun _ => ⟨nofun, nofun⟩, hstream, hsource,
        rfl⟩
      constructor
      · rintro ⟨-, hother⟩
        exact congrArg Except.ok (htrailer.symm.trans hother)
      · intro hother
        exact ⟨rfl, htrailer.trans (Except.ok.inj hother)⟩

/-- Three bytes and an empty chunk are read in pieces of one, two and more bytes. -/
theorem bytes_are_those_of_chunks_in_pieces :
    ∃ r, (start (.ofBytes ((Octets.zero 24).bytes ++ wire (.fresh (.zero 32) (.zero 24) {})
        [([1, 2, 3], .message), ([], .push), ([4], .final)])) (.zero 32) {}).result = .ok r ∧
      (∀ i, i + 1 ≠ 0) ∧ SameToTheEnd (r.readThrough (· + 1)) r.chunksThrough := by
  obtain ⟨source, hstart, -⟩ := start_of_rest (Source.healthy_ofBytes _) rfl (.zero 32) {}
  exact ⟨_, hstart, Nat.succ_ne_zero, bytes_are_those_of_chunks hstart Nat.succ_ne_zero⟩

end AeadStream.Frame.Reader
