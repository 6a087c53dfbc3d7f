import AeadStream.Proofs.Frame.Wire

/-!
# A writer on a sink with faults

Two writers are compared call by call: one on any sink, and one beside it on a healthy sink that
holds the same. As long as the first succeeds the two stay in step; once it fails, what its sink
holds is a front part of what the other one's holds.

* `Writer.Put`, `Writer.put` — how writing a frame can go on any sink;
* `Writer.Beside` — the two writers in step;
* `Writer.Beside.writeChunk`, `Writer.Beside.finish`, `Writer.beside_of_start` — the calls.
-/

namespace AeadStream.Frame.Writer

variable {plaintext trailer : Bytes} {tag : Tag} {w calm : Writer}
  {ρ : Type} [Entropy ρ] {random : ρ} {config : Config}

/-! ## Any sink -/

/-- **A writer cannot start:** no chunk may hold a byte, or no header is drawn. -/
def Refused (config : Config) (random : ρ) : Prop :=
  config.maxChunkLen = 0 ∨ ∃ reason, (Entropy.draw random 24).1 = .error reason

/-- **How writing a frame can go.** -/
inductive Put (w : Writer) (plaintext : Bytes) (tag : Tag) : Outcome IoFault Writer Unit → Prop
  /-- the frame does not fit, and nothing is written -/
  | refused {o : Outcome IoFault Writer Unit} {fault : IoFault} (hfits : ¬Fits w.stream plaintext)
      (hresult : o.result = .error fault) (hsink : o.state.sink = w.sink) : Put w plaintext tag o
  /-- the sink fails, and a front part of the frame is written -/
  | cut {o : Outcome IoFault Writer Unit} {fault : IoFault} {front : Bytes}
      (hfits : Fits w.stream plaintext) (hresult : o.result = .error fault)
      (hfront : front <+: ofSealed (w.stream.chunk plaintext tag []))
      (hcontents : o.state.sink.contents = w.sink.contents ++ front) : Put w plaintext tag o
  /-- the frame is written -/
  | gave {o : Outcome IoFault Writer Unit} (hresult : o.result = .ok ())
      (hgave : Gave w plaintext tag o.state) : Put w plaintext tag o

/-- Of a frame that fits, a front part is written. -/
theorem writeChunk_within (hfits : Fits w.stream plaintext) (tag : Tag) :
    ∃ front, front <+: ofSealed (w.stream.chunk plaintext tag []) ∧
      (w.writeChunk plaintext tag).state.sink.contents = w.sink.contents ++ front := by
  have hsize : ¬UInt32.size ≤ (w.stream.chunk plaintext tag []).length := by
    rw [Stream.length_chunk]
    exact Nat.not_le.mpr hfits.lt_size
  rw [writeChunk, Stream.push_of_le hfits.streaming hfits.le_limit]
  simp only [if_neg hsize]
  obtain ⟨front, hfront, hcontents⟩ := w.sink.writeAll_within
    (beBytes lengthBytes (w.stream.chunk plaintext tag []).length)
  rcases hlength : w.sink.writeAll
    (beBytes lengthBytes (w.stream.chunk plaintext tag []).length) with ⟨_ | _, sink⟩
  · -- the length is cut
    rw [hlength] at hcontents
    exact ⟨front, hfront.trans (List.prefix_append ..), hcontents⟩
  · -- the length is written, and the chunk is cut
    obtain ⟨front, hfront, hcontents⟩ := sink.writeAll_within (w.stream.chunk plaintext tag [])
    refine ⟨_, (List.prefix_append_right_inj _).mpr hfront, ?_⟩
    rw [hcontents, Sink.contents_of_writeAll hlength, List.append_assoc]

/-- Of a frame that does not fit, nothing is written. -/
theorem sink_of_not_fits (hfits : ¬Fits w.stream plaintext) (tag : Tag) :
    (w.writeChunk plaintext tag).state.sink = w.sink := by
  have hpush := w.stream.pushed plaintext tag []
  rw [writeChunk]
  generalize w.stream.push plaintext tag [] = pushed at hpush
  cases hpush with
  | finalized => rfl
  | tooLong => rfl
  | emitted hphase hlen =>
    dsimp only
    by_cases hsize : UInt32.size ≤ (w.stream.chunk plaintext tag []).length
    · rw [if_pos hsize]
    · rw [Stream.length_chunk, Nat.not_le] at hsize
      exact absurd ⟨hphase, hlen, hsize⟩ hfits

/-- Writing a frame goes in one of these ways. -/
theorem put (w : Writer) (plaintext : Bytes) (tag : Tag) :
    Put w plaintext tag (w.writeChunk plaintext tag) := by
  cases hresult : (w.writeChunk plaintext tag).result with
  | ok _ => exact .gave hresult (gave_of_writeChunk hresult)
  | error fault =>
    by_cases hfits : Fits w.stream plaintext
    · obtain ⟨front, hfront, hcontents⟩ := writeChunk_within hfits tag
      exact .cut hfits hresult hfront hcontents
    · exact .refused hfits hresult (sink_of_not_fits hfits tag)

/-- **How starting can go.** -/
inductive Began (sink : Sink) (key : SessionKey) (random : ρ) (config : Config) :
    Outcome IoFault Sink Writer → Prop
  /-- the settings are refused, or there is no header, and nothing is written -/
  | refused {o : Outcome IoFault Sink Writer} {fault : IoFault}
      (hrefused : Refused config random) (hresult : o.result = .error fault)
      (hstate : o.state = sink) : Began sink key random config o
  /-- the sink fails, and a front part of the header is written -/
  | cut {o : Outcome IoFault Sink Writer} {fault : IoFault} {header : Header} {front : Bytes}
      (hconfig : config.maxChunkLen ≠ 0) (hdraw : (Entropy.draw random 24).1 = .ok header)
      (hresult : o.result = .error fault) (hfront : front <+: header.bytes)
      (hcontents : o.state.contents = sink.contents ++ front) : Began sink key random config o
  /-- the header is written -/
  | gave {o : Outcome IoFault Sink Writer} {w : Writer} {header : Header}
      (hconfig : config.maxChunkLen ≠ 0) (hdraw : (Entropy.draw random 24).1 = .ok header)
      (hresult : o.result = .ok w) (hstate : o.state = w.sink)
      (hstream : w.stream = .fresh key header config)
      (hcontents : w.sink.contents = sink.contents ++ header.bytes) : Began sink key random config o

/-- Starting goes in one of these ways. -/
theorem began (sink : Sink) (key : SessionKey) (random : ρ) (config : Config) :
    Began sink key random config (start sink key random config) := by
  by_cases hconfig : config.maxChunkLen = 0
  · rw [start, if_pos hconfig]
    exact .refused (.inl hconfig) rfl rfl
  cases hdraw : (Entropy.draw random 24).1 with
  | error reason =>
    rw [start, if_neg hconfig]
    simp only [Stream.sender_of_error hdraw]
    exact .refused (.inr ⟨reason, hdraw⟩) rfl rfl
  | ok header =>
    obtain ⟨front, hfront, hcontents⟩ := sink.writeAll_within header.bytes
    rw [start, if_neg hconfig]
    simp only [Stream.sender_eq_fresh hdraw]
    rcases hwrite : sink.writeAll header.bytes with ⟨_ | _, sink'⟩
    · rw [hwrite] at hcontents
      exact .cut hconfig hdraw rfl hfront hcontents
    · exact .gave hconfig hdraw rfl rfl rfl (Sink.contents_of_writeAll hwrite)

/-- A writer that cannot start writes nothing. -/
theorem start_of_refused (h : Refused config random) (sink : Sink) (key : SessionKey) :
    ∃ fault, (start sink key random config).result = .error fault ∧
      (start sink key random config).state = sink := by
  have hnot : ∀ {header : Header}, config.maxChunkLen ≠ 0 →
      (Entropy.draw random 24).1 = .ok header → False := by
    rintro header hconfig hdraw
    obtain hzero | ⟨reason, hfailed⟩ := h
    · exact hconfig hzero
    · cases hdraw.symm.trans hfailed
  cases began sink key random config with
  | refused _ hresult hstate => exact ⟨_, hresult, hstate⟩
  | cut hconfig hdraw => exact (hnot hconfig hdraw).elim
  | gave hconfig hdraw => exact (hnot hconfig hdraw).elim

/-- Starting loses nothing that was written. -/
theorem grows_start (sink : Sink) (key : SessionKey) (random : ρ) (config : Config) :
    sink.contents <+: (start sink key random config).state.contents := by
  cases began sink key random config with
  | refused _ _ hstate => exact ⟨[], by rw [hstate, List.append_nil]⟩
  | cut _ _ _ _ hcontents =>
    rw [hcontents]
    exact List.prefix_append ..
  | gave _ _ _ hstate _ hcontents =>
    rw [hstate, hcontents]
    exact List.prefix_append ..

/-- A writer that began is on the sink that starting left. -/
theorem state_of_start {sink : Sink} {key : SessionKey} {random : ρ} {config : Config}
    (h : (start sink key random config).result = .ok w) :
    (start sink key random config).state = w.sink := by
  cases began sink key random config with
  | refused _ hresult => cases hresult.symm.trans h
  | cut _ _ hresult => cases hresult.symm.trans h
  | gave _ _ hresult hstate =>
    obtain rfl := Except.ok.inj (hresult.symm.trans h)
    exact hstate

/-- Nothing that was written is lost. -/
theorem grows_writeChunk (w : Writer) (plaintext : Bytes) (tag : Tag) :
    w.sink.contents <+: (w.writeChunk plaintext tag).state.sink.contents := by
  cases w.put plaintext tag with
  | refused _ _ hsink => exact ⟨[], by rw [hsink, List.append_nil]⟩
  | cut _ _ _ hcontents =>
    rw [hcontents]
    exact List.prefix_append ..
  | gave _ hgave =>
    rw [hgave.contents]
    exact List.prefix_append ..

/-- Finishing writes what the final frame does, whatever comes of the flush. -/
theorem contents_finish (w : Writer) (trailer : Bytes) :
    (w.finish trailer).state.sink.contents =
      (w.writeChunk trailer .final).state.sink.contents := by
  rw [finish]
  split
  · rfl
  · exact Sink.contents_flush _

/-- Finishing loses nothing that was written. -/
theorem grows_finish (w : Writer) (trailer : Bytes) :
    w.sink.contents <+: (w.finish trailer).state.sink.contents := by
  rw [contents_finish]
  exact w.grows_writeChunk trailer .final

/-- What was finished was flushed. -/
theorem flushed_of_finish (h : (w.finish trailer).result = .ok ()) :
    (w.finish trailer).state.sink.flushed = true := by
  rw [finish] at h ⊢
  cases hwrite : (w.writeChunk trailer .final).result with
  | error fault =>
    simp only [hwrite] at h
    cases h
  | ok _ =>
    simp only [hwrite] at h
    exact Sink.flushed_flush h

/-! ## Beside a healthy sink -/

/-- **A writer beside another** has the same stream and a healthy sink that holds the same. -/
structure Beside (w calm : Writer) : Prop where
  stream : calm.stream = w.stream
  healthy : calm.sink.Healthy
  contents : calm.sink.contents = w.sink.contents

/-- A writer and the one beside it begin alike, unless the sink takes only a part of the header. -/
theorem beside_of_start {sink calm : Sink} (hcalm : calm.Healthy)
    (hsame : calm.contents = sink.contents) (key : SessionKey) (random : ρ) (config : Config) :
    (start sink key random config).state.contents <+:
        (start calm key random config).state.contents ∧
      ∀ w, (start sink key random config).result = .ok w →
        ∃ w', (start calm key random config).result = .ok w' ∧ Beside w w' := by
  cases began sink key random config with
  | refused _ hresult hstate =>
    refine ⟨?_, fun w hw => by rw [hresult] at hw; cases hw⟩
    rw [hstate, ← hsame]
    exact grows_start calm key random config
  | cut hconfig hdraw hresult hfront hcontents =>
    obtain ⟨calm', hstart, -, hcontents'⟩ := start_of_draw hdraw hconfig hcalm key
    refine ⟨?_, fun w hw => by rw [hresult] at hw; cases hw⟩
    rw [hcontents, state_of_start hstart, sink_upon, hcontents', hsame]
    exact (List.prefix_append_right_inj _).mpr hfront
  | gave hconfig hdraw hresult hstate hstream hcontents =>
    obtain ⟨calm', hstart, hhealthy, hcontents'⟩ := start_of_draw hdraw hconfig hcalm key
    rw [hsame, ← hcontents] at hcontents'
    refine ⟨?_, ?_⟩
    · rw [hstate, state_of_start hstart, sink_upon]
      exact hcontents' ▸ List.prefix_refl _
    · intro w' hw
      obtain rfl := Except.ok.inj (hresult.symm.trans hw)
      exact ⟨_, hstart, hstream.symm, hhealthy, hcontents'⟩

namespace Beside

/-- **A frame** is written by both, unless the sink takes only a part of it or it does not fit. -/
theorem writeChunk (h : Beside w calm) (plaintext : Bytes) (tag : Tag) :
    (w.writeChunk plaintext tag).state.sink.contents <+:
        (calm.writeChunk plaintext tag).state.sink.contents ∧
      ((w.writeChunk plaintext tag).result = .ok () →
        ∃ calm' events, calm.writeChunk plaintext tag = ⟨.ok (), calm', events⟩ ∧
          Beside (w.writeChunk plaintext tag).state calm') := by
  obtain ⟨hstream, hhealthy, hcontents⟩ := h
  cases w.put plaintext tag with
  | refused _ hresult hsink =>
    refine ⟨?_, fun hok => by rw [hresult] at hok; cases hok⟩
    rw [hsink, ← hcontents]
    exact calm.grows_writeChunk plaintext tag
  | cut hfits hresult hfront hcontents' =>
    obtain ⟨sink, hwrite, -, hwritten⟩ :=
      writeChunk_of_fits hhealthy (by rwa [hstream]) tag
    refine ⟨?_, fun hok => by rw [hresult] at hok; cases hok⟩
    rw [hwrite, hcontents', hwritten, hcontents, hstream]
    exact (List.prefix_append_right_inj _).mpr hfront
  | gave hresult hgave =>
    obtain ⟨sink, hwrite, hhealthy', hwritten⟩ :=
      writeChunk_of_fits hhealthy (by rw [hstream]; exact hgave.fits) tag
    have heq : sink.contents = (w.writeChunk plaintext tag).state.sink.contents := by
      rw [hwritten, hgave.contents, hcontents, hstream]
    refine ⟨?_, fun _ => ⟨_, _, hwrite, ?_, hhealthy', heq⟩⟩
    · rw [hwrite]
      exact heq ▸ List.prefix_refl _
    · rw [hgave.stream, hstream]

/-- **Finishing** writes the same in both, unless the sink takes only a part of it or it does not
fit, and what it is said to have written was flushed. -/
theorem finish (h : Beside w calm) (trailer : Bytes) :
    (w.finish trailer).state.sink.contents <+: (calm.finish trailer).state.sink.contents ∧
      ((w.finish trailer).result = .ok () →
        (calm.finish trailer).result = .ok () ∧
          (w.finish trailer).state.sink.contents = (calm.finish trailer).state.sink.contents ∧
          (w.finish trailer).state.sink.flushed = true) := by
  obtain ⟨hwithin, hstep⟩ := h.writeChunk trailer .final
  rw [contents_finish, contents_finish]
  refine ⟨hwithin, fun hok => ?_⟩
  cases hwrite : (w.writeChunk trailer .final).result with
  | error fault =>
    rw [Writer.finish] at hok
    simp only [hwrite] at hok
    cases hok
  | ok _ =>
    obtain ⟨calm', events, hcalm, hbeside⟩ := hstep hwrite
    have hfinish : (calm.finish trailer).result = .ok () :=
      (finish_of_writeChunk (by rw [hcalm]) (by rw [hcalm]; exact hbeside.healthy)).1
    refine ⟨hfinish, ?_, flushed_of_finish hok⟩
    rw [hcalm, hbeside.contents]

end Beside

end AeadStream.Frame.Writer
