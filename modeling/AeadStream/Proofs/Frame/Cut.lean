import AeadStream.Proofs.Frame.Wire

/-!
# Wires that are cut short

The first bytes of a wire hold some frames wholly, and then a part of the next frame, which may be
none of it. A reader takes the former and then meets with a fault, which is that of its source
unless the source just ends.

* `within`, `take_wire` — what the first bytes of a wire hold;
* `Reader.readChunk_of_cut` — a reader misses what was cut off a frame.
-/

namespace AeadStream.Frame

variable {plaintext : Bytes} {tag : Tag}

/-! ## What is left of a wire -/

/-- **The frames that lie wholly within** the first `n` bytes of their wire. -/
def within (n : Nat) : List (Bytes × Tag) → List (Bytes × Tag)
  | [] => []
  | f :: frames =>
    if lengthBytes + (chunkOverhead + f.1.length) ≤ n then
      f :: within (n - (lengthBytes + (chunkOverhead + f.1.length))) frames
    else []

/-- No frame lies within no bytes. -/
theorem within_zero (frames : List (Bytes × Tag)) : within 0 frames = [] := by
  cases frames with
  | nil => rfl
  | cons f fs =>
    refine if_neg ?_
    simp only [lengthBytes]
    omega

theorem mem_of_mem_within {f : Bytes × Tag} {frames : List (Bytes × Tag)} :
    ∀ {n : Nat}, f ∈ within n frames → f ∈ frames := by
  induction frames with
  | nil => exact id
  | cons g gs ih =>
    intro n hmem
    rw [within] at hmem
    split at hmem
    · rcases List.mem_cons.mp hmem with rfl | hmem
      · exact List.mem_cons_self ..
      · exact List.mem_cons_of_mem _ (ih hmem)
    · cases hmem

/-- A frame is as long as its plaintext and what is around it. -/
theorem length_frame (s : Stream) (f : Bytes × Tag) :
    (ofSealed (s.chunk f.1 f.2 [])).length = lengthBytes + (chunkOverhead + f.1.length) := by
  rw [length_ofSealed, Stream.length_chunk]
  omega

/-- Of a frame some bytes are left, and some are cut off. -/
theorem take_frame {s : Stream} {f : Bytes × Tag} {n : Nat}
    (hlt : n < lengthBytes + (chunkOverhead + f.1.length)) :
    ∃ part cutOff, (ofSealed (s.chunk f.1 f.2 [])).take n = part ∧
      ofSealed (s.chunk f.1 f.2 []) = part ++ cutOff ∧ cutOff ≠ [] := by
  refine ⟨_, (ofSealed (s.chunk f.1 f.2 [])).drop n, rfl, (List.take_append_drop ..).symm, ?_⟩
  intro hnil
  have hle := List.drop_eq_nil_iff.mp hnil
  rw [length_frame] at hle
  omega

/-- **A wire that is cut short** holds the frames within wholly, and then a part of the next one,
which may be the last. -/
theorem take_wire (frames : List (Bytes × Tag)) (last : Bytes × Tag) :
    ∀ {s : Stream} {n : Nat}, n < (wire s (frames ++ [last])).length →
      ∃ f part cutOff back, frames ++ [last] = within n frames ++ f :: back ∧
        (wire s (frames ++ [last])).take n = wire s (within n frames) ++ part ∧
        ofSealed ((behind s (within n frames)).chunk f.1 f.2 []) = part ++ cutOff ∧
        cutOff ≠ [] := by
  induction frames with
  | nil =>
    intro s n hlt
    rw [List.nil_append, wire, wire, List.append_nil, length_frame] at hlt
    obtain ⟨part, cutOff, htake, hframe, hcut⟩ := take_frame (s := s) hlt
    refine ⟨last, part, cutOff, [], rfl, ?_, hframe, hcut⟩
    rw [List.nil_append, wire, wire, List.append_nil]
    exact htake
  | cons f fs ih =>
    intro s n hlt
    rw [List.cons_append, wire, List.length_append, length_frame] at hlt
    rw [List.cons_append, wire, List.take_append, length_frame, within]
    by_cases hle : lengthBytes + (chunkOverhead + f.1.length) ≤ n
    · -- the first frame is left
      obtain ⟨g, part, cutOff, back, hall, htake, hframe, hcut⟩ :=
        ih (s := (s.advance f.2).1) (n := n - (lengthBytes + (chunkOverhead + f.1.length)))
          (by omega)
      rw [if_pos hle, List.take_of_length_le (by rw [length_frame]; exact hle), htake, hall, wire]
      exact ⟨g, part, cutOff, back, rfl, (List.append_assoc ..).symm, hframe, hcut⟩
    · -- the first frame is cut
      obtain ⟨part, cutOff, htake, hframe, hcut⟩ := take_frame (s := s) (Nat.not_le.mp hle)
      rw [if_neg hle, Nat.sub_eq_zero_of_le (Nat.le_of_not_le hle), List.take_zero, htake]
      exact ⟨f, part, cutOff, fs ++ [last], rfl, List.append_nil _, hframe, hcut⟩

/-! ## Faults of the source -/

/-- **What is reported** of the fault at which a source stops: one of the same kind, and the same
one unless the bytes just ran out. -/
structure Reports (stop fault : IoFault) : Prop where
  kind : fault.kind = stop.kind
  same : stop.kind ≠ .unexpectedEnd → fault = stop

theorem Reports.refl (fault : IoFault) : Reports fault fault := ⟨rfl, fun _ => rfl⟩

/-- Inside a stream too. -/
theorem Reports.insideStream (fault : IoFault) : Reports fault fault.insideStream := by
  rw [IoFault.insideStream]
  split
  · next hkind => exact ⟨hkind.symm, fun hne => absurd hkind hne⟩
  · exact .refl fault

/-! ## Reading -/

namespace Reader

/-- **A frame that was cut off is missed:** before its last byte the source stops, and that it
ends there means that the stream was cut short. -/
theorem readChunk_of_cut {r : Reader} {bytes cutOff : Bytes} {ending : Option IoFault}
    (hlimits : r.LimitsAgree)
    (hsource : r.source.Delivers bytes ending) (hfits : Fits r.stream plaintext)
    (hframe : ofSealed (r.stream.chunk plaintext tag []) = bytes ++ cutOff)
    (hcut : cutOff ≠ []) :
    r.readChunk.result = .error (ending.getD .endOfInput).insideStream := by
  obtain ⟨hsize, hrange⟩ := hlimits.length_of_fits hfits tag
  have hpos : 0 < cutOff.length := List.length_pos_iff.mpr hcut
  rw [ofSealed] at hframe
  have hlen := congrArg List.length hframe
  rw [List.length_append, List.length_append, length_beBytes] at hlen
  rw [readChunk, if_neg (not_isFinished hfits.streaming)]
  by_cases hshort : bytes.length < lengthBytes
  · -- the length itself was cut
    obtain ⟨source, hread⟩ := hsource.readExact_short hshort
    rw [hread]
  · -- the length is there and the chunk was cut
    have hfront : bytes.take lengthBytes =
        beBytes lengthBytes (r.stream.chunk plaintext tag []).length := by
      have htake := congrArg (List.take lengthBytes) hframe
      rwa [List.take_left' (length_beBytes ..),
        List.take_append_of_le_length (Nat.not_lt.mp hshort), eq_comm] at htake
    rw [← List.take_append_drop lengthBytes bytes, hfront] at hsource
    obtain ⟨source₁, hlength, hnext⟩ := hsource.readExact
    rw [length_beBytes] at hlength
    have hshort' : (bytes.drop lengthBytes).length <
        (r.stream.chunk plaintext tag []).length := by
      rw [List.length_drop]
      omega
    obtain ⟨source₂, hread⟩ := hnext.readExact_short hshort'
    simp only [hlength, hsize, if_neg hrange, hread]

end Reader

end AeadStream.Frame
