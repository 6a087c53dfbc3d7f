import AeadStream.Proofs.Frame.Wire

/-!
# How reading goes

Said once for each of the two ways to read. Reading a chunk finds the stream at its end, or fails
and leaves the stream where it was, or takes a frame. Reading bytes hands out what is in the
buffer, and otherwise passes over empty chunks until it comes to something else.

* `Fetched`, `fetched` — reading a chunk;
* `PassedOver`, `WentOn`, `wentOn` — reading bytes from an empty buffer.
-/

namespace AeadStream.Frame.Reader

variable {r r' : Reader} {n : Nat}

/-- A reader begins with the end ahead, and without a trailer. -/
theorem not_finished_of_start {source : Source} {key : SessionKey} {config : Config}
    (h : (start source key config).result = .ok r) : r.isFinished = false ∧ r.trailer = none := by
  constructor
  · obtain ⟨header, -, hstream⟩ := took_of_start h
    rw [isFinished, hstream]
    rfl
  · rw [start] at h
    split at h
    · cases h
    · split at h
      · cases h
      · obtain rfl := Except.ok.inj h
        rfl

/-- It begins with nothing to hand over. -/
theorem holding_of_start {source : Source} {key : SessionKey} {config : Config}
    (h : (start source key config).result = .ok r) : r.holding [] = r := by
  rw [start] at h
  split at h
  · cases h
  · split at h
    · cases h
    · obtain rfl := Except.ok.inj h
      rfl

/-! ## Reading a chunk -/

/-- A chunk that is not read leaves the stream where it was. -/
theorem stream_of_error {fault : IoFault} (h : r.readChunk.result = .error fault) :
    r.readChunk.state.stream = r.stream := by
  generalize ho : r.readChunk = o at h ⊢
  rw [readChunk] at ho
  split at ho
  · subst ho
    rfl
  · split at ho
    · subst ho
      rfl
    · next written source₁ hwritten =>
      dsimp only at ho
      split at ho
      · subst ho
        rfl
      · split at ho
        · subst ho
          rfl
        · next sealed source₂ hread =>
          -- what the stream refuses leaves it where it was
          have hpull := r.stream.pulled sealed []
          generalize r.stream.pull sealed [] = pulled at ho hpull
          subst ho
          cases hpull with
          | finalized => rfl
          | malformed => rfl
          | forged => rfl
          | unknownTag => rfl
          | accepted => cases h

/-- **How reading a chunk can go.** -/
inductive Fetched (r : Reader) (o : Outcome IoFault Reader (Option (Bytes × Tag))) : Prop
  /-- the final chunk was read before -/
  | finished (hfinished : r.isFinished = true) (hresult : o.result = .ok none)
      (hstate : o.state = r)
  /-- there is a fault, and the stream stays where it was -/
  | failed {fault : IoFault} (hphase : r.stream.phase = .streaming)
      (hresult : o.result = .error fault) (hstate : o.state = { r with source := o.state.source })
  /-- the frame that is next is taken -/
  | took {plaintext : Bytes} {tag : Tag} (hresult : o.result = .ok (some (plaintext, tag)))
      (htook : Took r plaintext tag o.state)
      (hstate : o.state =
        { r with source := o.state.source, stream := (r.stream.advance tag).1 })

/-- Reading a chunk goes in one of these ways. -/
theorem fetched (r : Reader) : Fetched r r.readChunk := by
  have hstate := r.state_readChunk
  cases hresult : r.readChunk.result with
  | error fault =>
    rw [stream_of_error hresult] at hstate
    refine .failed ?_ hresult hstate
    cases hphase : r.stream.phase with
    | streaming => rfl
    | finalized =>
      have hfinished : r.isFinished = true := decide_eq_true hphase
      rw [readChunk, if_pos hfinished] at hresult
      cases hresult
  | ok chunk =>
    cases chunk with
    | none =>
      obtain ⟨hfinished, hsame⟩ := readChunk_none hresult
      exact .finished hfinished hresult hsame
    | some chunk =>
      have htook := took_of_readChunk hresult
      rw [htook.stream] at hstate
      exact .took hresult htook hstate

/-- Nothing is read once the final chunk was. -/
theorem readChunk_of_finished (h : r.isFinished = true) : r.readChunk = ⟨.ok none, r, []⟩ := by
  rw [readChunk, if_pos h]

/-! ## Reading bytes -/

/-- **A reader behind empty chunks** that were read one after the other, none of them final. -/
inductive PassedOver : Reader → Reader → Prop
  | refl (r : Reader) : PassedOver r r
  | step {r r' : Reader} {tag : Tag} (hread : r.readChunk.result = .ok (some ([], tag)))
      (htag : tag ≠ .final) (hrest : PassedOver (r.readChunk.state.holding []) r') :
      PassedOver r r'

namespace PassedOver

/-- Passing over leaves the trailer. -/
theorem trailer_eq (h : PassedOver r r') : r'.trailer = r.trailer := by
  induction h with
  | refl r => rfl
  | @step r _ _ _ _ _ ih => exact ih.trans r.trailer_readChunk

/-- The stream goes on. -/
theorem isFinished_eq (h : PassedOver r r') : r'.isFinished = r.isFinished := by
  induction h with
  | refl r => rfl
  | step hread htag _ ih =>
    rw [ih, isFinished, holding, (took_of_readChunk hread).stream, Stream.phase_advance htag]
    rfl

end PassedOver

/-- **How reading bytes can go on,** if at least one is asked for and none is left to hand over. -/
inductive WentOn (r : Reader) (n : Nat) (o : Outcome IoFault Reader Bytes) : Prop
  /-- the final chunk was read before -/
  | finished (hfinished : r.isFinished = true) (hresult : o.result = .ok []) (hstate : o.state = r)
  /-- behind empty chunks there is a fault -/
  | failed {stop : Reader} {fault : IoFault} (hpassed : PassedOver r stop)
      (hread : stop.readChunk.result = .error fault) (hresult : o.result = .error fault)
      (hstate : o.state = stop.readChunk.state)
  /-- behind empty chunks there is the final one -/
  | final {stop : Reader} {trailer : Bytes} (hpassed : PassedOver r stop)
      (hread : stop.readChunk.result = .ok (some (trailer, .final))) (hresult : o.result = .ok [])
      (hstate : o.state = { stop.readChunk.state with trailer := some trailer })
  /-- behind empty chunks there is one that is not empty -/
  | data {stop : Reader} {plaintext : Bytes} {tag : Tag} (hpassed : PassedOver r stop)
      (hread : stop.readChunk.result = .ok (some (plaintext, tag))) (htag : tag ≠ .final)
      (hne : plaintext ≠ []) (hresult : o.result = .ok (plaintext.take n))
      (hstate : o.state = (stop.readChunk.state.holding plaintext).handedOver n)

theorem read_zero (r : Reader) : r.read 0 = ⟨.ok [], r, []⟩ := by
  rw [read, if_pos rfl]

/-- Bytes that are left are handed over. -/
theorem read_of_unread (hn : n ≠ 0) (hunread : r.unread ≠ []) :
    r.read n = ⟨.ok (r.unread.take n), r.handedOver n, []⟩ := by
  rw [read, if_neg hn, if_pos (position_lt_iff.mpr hunread)]

/-- Behind the end there are no bytes but those that are left. -/
theorem read_of_finished (h : r.isFinished = true) (hunread : r.unread = []) (n : Nat) :
    r.read n = ⟨.ok [], r, []⟩ := by
  rw [read]
  split
  · rfl
  · rw [if_neg (mt position_lt_iff.mp (Classical.not_not.mpr hunread))]
    dsimp only
    split
    · next hresult => rw [readChunk_of_finished h] at hresult; cases hresult
    · rw [readChunk_of_finished h]
    · next hresult => rw [readChunk_of_finished h] at hresult; cases hresult
    · next hresult => rw [readChunk_of_finished h] at hresult; cases hresult

/-- Reading bytes with none left to hand over goes on in one of these ways. -/
theorem wentOn (hn : n ≠ 0) (hunread : r.unread = []) : WentOn r n (r.read n) := by
  fun_induction read r n with
  | case1 r hzero => exact absurd hzero hn
  | case2 r hn hsome => exact absurd hunread (position_lt_iff.mp hsome)
  | case3 r hn hsome chunk fault hresult => exact .failed (.refl r) hresult rfl rfl
  | case4 r hn hsome chunk hresult =>
    obtain ⟨hfinished, hsame⟩ := readChunk_none hresult
    exact .finished hfinished rfl hsame
  | case5 r hn hsome chunk trailer hresult => exact .final (.refl r) hresult rfl rfl
  | case6 r hn hsome chunk plaintext tag htag hresult ih =>
    by_cases hne : plaintext = []
    · -- an empty chunk is passed over
      subst hne
      have hstep : ∀ {stop : Reader}, PassedOver (chunk.state.holding []) stop →
          PassedOver r stop := fun hpassed => .step hresult htag hpassed
      cases ih (unread_holding ..) with
      | finished hfinished =>
        have hphase := (took_of_readChunk hresult).fits.streaming
        rw [isFinished, holding, (took_of_readChunk hresult).stream, Stream.phase_advance htag,
          hphase] at hfinished
        cases hfinished
      | failed hpassed hread hres hstate => exact .failed (hstep hpassed) hread hres hstate
      | final hpassed hread hres hstate => exact .final (hstep hpassed) hread hres hstate
      | data hpassed hread htag' hne hres hstate =>
        exact .data (hstep hpassed) hread htag' hne hres hstate
    · have hread := read_of_unread (r := chunk.state.holding plaintext) hn hne
      refine .data (.refl r) hresult htag hne ?_ ?_
      · rw [Outcome.result_after, hread, unread_holding]
      · rw [Outcome.state_after, hread]

end AeadStream.Frame.Reader
