import AeadStream.Proofs.Frame.Wire

/-!
# The frames that any bytes begin with

At a place of a stream every byte string begins with frames that fit, maybe with none, and goes on
with bytes at which no further frame begins. There is only one way to divide it so, since frames
have one form on the wire.

* `exists_leading` — there is such a way;
* `leading_of_exhausted` — there is no other, and no longer one;
* `AllFit.data_or_whole` — at most the last of the frames is final.
-/

namespace AeadStream.Frame

variable {s : Stream} {frames frames' : List (Bytes × Tag)} {back back' : Bytes}

/-- **One frame begins with the same bytes only:** two frames that fit here, with anything behind
them, are the same if their bytes are. -/
theorem frame_unique {plaintext plaintext' : Bytes} {tag tag' : Tag} (hfits : Fits s plaintext)
    (hfits' : Fits s plaintext')
    (h : ofSealed (s.chunk plaintext tag []) ++ back =
      ofSealed (s.chunk plaintext' tag' []) ++ back') :
    plaintext = plaintext' ∧ tag = tag' ∧ back = back' := by
  -- a reader on these bytes gets either frame, and gets it once
  obtain ⟨source, hread, hnext⟩ := Reader.readChunk_of_fits
    (r := .upon (.ofBytes (ofSealed (s.chunk plaintext tag []) ++ back)) s)
    (Reader.limitsAgree_upon ..) ((Source.healthy_ofBytes _).delivers rfl) hfits
  obtain ⟨source', hread', hnext'⟩ := Reader.readChunk_of_fits
    (r := .upon (.ofBytes (ofSealed (s.chunk plaintext tag []) ++ back)) s)
    (Reader.limitsAgree_upon ..) ((Source.healthy_ofBytes _).delivers h) hfits'
  have hsame := hread.symm.trans hread'
  obtain ⟨rfl, rfl⟩ := Prod.mk.inj (Option.some.inj (Except.ok.inj (congrArg Outcome.result hsame)))
  obtain rfl : source = source' := congrArg (fun o => o.state.source) hsame
  exact ⟨rfl, rfl, hnext.healthy.2.symm.trans hnext'.healthy.2⟩

/-- **No frame begins** at these bytes. -/
def Exhausted (s : Stream) (bytes : Bytes) : Prop :=
  ∀ plaintext tag back, Fits s plaintext → bytes ≠ ofSealed (s.chunk plaintext tag []) ++ back

/-- **Bytes divide** into frames that fit and bytes at which no frame begins. -/
theorem exists_leading (s : Stream) (bytes : Bytes) :
    ∃ frames back, AllFit s frames ∧ bytes = wire s frames ++ back ∧
      Exhausted (behind s frames) back := by
  -- the bytes behind a frame are fewer
  induction hlen : bytes.length using Nat.strongRecOn generalizing s bytes with
  | ind n ih =>
    by_cases h : Exhausted s bytes
    · exact ⟨[], bytes, .nil, rfl, h⟩
    · simp only [Exhausted, Classical.not_forall, Classical.not_not] at h
      obtain ⟨plaintext, tag, back, hfits, rfl⟩ := h
      have hless : back.length < n := by
        rw [← hlen, List.length_append, length_ofSealed, lengthBytes]
        omega
      obtain ⟨frames, back', hfit, hrest, hend⟩ := ih _ hless (s.advance tag).1 back rfl
      refine ⟨(plaintext, tag) :: frames, back', .cons hfits hfit, ?_, hend⟩
      rw [wire, List.append_assoc, ← hrest]

/-- **No other frames are there,** and no more of them. -/
theorem leading_of_exhausted (hfit' : AllFit s frames') :
    ∀ {frames : List (Bytes × Tag)} {back : Bytes}, AllFit s frames →
      Exhausted (behind s frames) back → wire s frames ++ back = wire s frames' ++ back' →
      frames' <+: frames := by
  induction hfit' with
  | nil =>
    intro frames _ _ _ _
    exact List.nil_prefix
  | cons hfits' _ ih =>
    rintro frames back (_ | ⟨hfits, hrest⟩) hend h
    · rw [wire, wire, List.nil_append, List.append_assoc] at h
      exact absurd h (hend _ _ _ hfits')
    · rw [wire, wire, List.append_assoc, List.append_assoc] at h
      obtain ⟨rfl, rfl, hlater⟩ := frame_unique hfits hfits' h
      exact (List.prefix_cons_inj _).mpr (ih hrest hend hlater)

/-- Frames that fit are all of data, or the last one is final and the others are of data. -/
theorem AllFit.data_or_whole (hfit : AllFit s frames) :
    (∀ f ∈ frames, f.2 ≠ .final) ∨
      ∃ data trailer, frames = data ++ [(trailer, .final)] ∧ ∀ f ∈ data, f.2 ≠ .final := by
  induction hfit with
  | nil => exact .inl fun f hf => absurd hf List.not_mem_nil
  | @cons s plaintext tag frames _ hrest ih =>
    by_cases htag : tag = .final
    · -- nothing fits behind a final frame
      subst htag
      cases hrest with
      | nil => exact .inr ⟨[], plaintext, rfl, fun f hf => absurd hf List.not_mem_nil⟩
      | cons hfits _ => exact absurd hfits.streaming nofun
    · rcases ih with hdata | ⟨data, trailer, rfl, hdata⟩
      · exact .inl (List.forall_mem_cons.mpr ⟨htag, hdata⟩)
      · exact .inr ⟨(plaintext, tag) :: data, trailer, rfl,
          List.forall_mem_cons.mpr ⟨htag, hdata⟩⟩

/-- A reader finds no frame where none begins. -/
theorem Reader.readChunk_of_exhausted {r : Reader} (hphase : r.stream.phase = .streaming)
    (h : Exhausted r.stream r.source.rest) : ∃ fault, r.readChunk.result = .error fault := by
  cases hresult : r.readChunk.result with
  | error fault => exact ⟨fault, rfl⟩
  | ok read =>
    cases read with
    | none => exact absurd (readChunk_none hresult).1 (not_isFinished hphase)
    | some frame =>
      obtain ⟨hfits, hrest, -⟩ := took_of_readChunk hresult
      exact absurd hrest (h _ _ _ hfits)

end AeadStream.Frame
