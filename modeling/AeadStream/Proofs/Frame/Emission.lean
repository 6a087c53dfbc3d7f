import AeadStream.Proofs.Frame.Faults
import AeadStream.Proofs.Frame.Finality

/-!
# What a writer emits

Whatever the calls on a writer are and whatever comes of them, its sink gets whole frames, each with
a length that a reader under the same or a larger limit accepts. Data that are refused leave nothing
behind. Only where the sink itself fails is the frame cut that it was taking.

* `InRange`, `FrameInRange` — the lengths that are accepted under some settings;
* `SameSettings` — what a writer keeps, whatever is called;
* `Emitted`, `WriterCall.emitted` — what one call emits;
* `WriterCall.course_whole` — on a healthy sink there are whole frames only.
-/

namespace AeadStream

/-- A larger limit lets no fewer chunks through. -/
theorem Config.sealedLimit_mono {m n : UInt64} (h : m ≤ n) :
    sealedLimit m ≤ sealedLimit n := by
  rw [UInt64.le_iff_toNat_le] at h
  rw [sealedLimit, sealedLimit]
  omega

/-- **The faults of a sink** that is written to: it takes nothing, or it is full. -/
def Sink.FailsWith (s : Sink) (fault : IoFault) : Prop :=
  fault = .writeZero ∨ s.full = some fault

namespace Frame

variable {config : Config} {plaintext : Bytes} {tag : Tag}

/-! ## Lengths in range -/

/-- **A length in range** under these settings: that of a chunk which holds the overhead and, for
the rest, a plaintext within the limit, as far as lengths go. -/
structure InRange (config : Config) (length : Nat) : Prop where
  overhead_le : chunkOverhead ≤ length
  le_sealedLimit : length ≤ Config.sealedLimit config.maxChunkLen

theorem not_inRange_iff {length : Nat} :
    ¬InRange config length ↔
      length < chunkOverhead ∨ Config.sealedLimit config.maxChunkLen < length := by
  constructor
  · intro h
    by_cases hlt : length < chunkOverhead
    · exact .inl hlt
    · exact .inr (Nat.lt_of_not_le fun hle => h ⟨Nat.not_lt.mp hlt, hle⟩)
  · rintro (hlt | hlt) ⟨hmin, hmax⟩
    · omega
    · omega

/-- **A frame in range** begins with four bytes that read as the length of what is behind them, and
this length is in range. -/
def FrameInRange (config : Config) (frame : Bytes) : Prop :=
  ∃ written sealed, frame = written ++ sealed ∧ written.length = lengthBytes ∧
    natOfBe written = sealed.length ∧ InRange config sealed.length

/-- The frame of a plaintext that fits is one under every limit that is not below. -/
theorem frameInRange_of_fits {s : Stream} (hfits : Fits s plaintext)
    (hlimit : s.maxChunkLen ≤ config.maxChunkLen) (tag : Tag) :
    FrameInRange config (ofSealed (s.chunk plaintext tag [])) := by
  obtain ⟨hsize, hrange⟩ := Reader.length_of_fits hfits tag
  obtain ⟨hmin, hmax⟩ := not_or.mp hrange
  refine ⟨_, _, rfl, length_beBytes .., hsize, Nat.not_lt.mp hmin, ?_⟩
  exact Nat.le_trans (Nat.not_lt.mp hmax) (Config.sealedLimit_mono hlimit)

/-! ## What stays -/

/-- **The settings stay:** both limits of a writer, the fault of its sink, and that the sink is
healthy. -/
structure SameSettings (w w' : Writer) : Prop where
  own : w'.maxChunkLen = w.maxChunkLen
  stream : w'.stream.maxChunkLen = w.stream.maxChunkLen
  full : w'.sink.full = w.sink.full
  healthy : w.sink.Healthy → w'.sink.Healthy

namespace SameSettings

variable {w w' w'' : Writer}

theorem refl (w : Writer) : SameSettings w w := ⟨rfl, rfl, rfl, id⟩

theorem trans (h : SameSettings w w') (h' : SameSettings w' w'') : SameSettings w w'' where
  own := h'.own.trans h.own
  stream := h'.stream.trans h.stream
  full := h'.full.trans h.full
  healthy := fun hsink => h'.healthy (h.healthy hsink)

theorem limitsAgree (h : SameSettings w w') (hlimits : w.LimitsAgree) : w'.LimitsAgree :=
  hlimits.congr h.own h.stream

/-- So the faults of the sink are the same. -/
theorem failsWith (h : SameSettings w w') {fault : IoFault} (hfault : w'.sink.FailsWith fault) :
    w.sink.FailsWith fault := by
  rwa [Sink.FailsWith, h.full] at hfault

end SameSettings

namespace Writer

variable {w : Writer}

/-- What a sink does when it is full is the same behind a chunk. -/
theorem full_writeChunk (w : Writer) (data : Bytes) (tag : Tag) :
    (w.writeChunk data tag).state.sink.full = w.sink.full := by
  rw [writeChunk]
  split
  · rfl
  · next sealed _ =>
    dsimp only
    split
    · rfl
    · have hlength := w.sink.full_writeAll (beBytes lengthBytes sealed.length)
      split
      · next hwrite => rwa [hwrite] at hlength
      · next sink hwrite =>
        rw [hwrite] at hlength
        exact (sink.full_writeAll sealed).trans hlength

/-- A sink that is healthy is so behind a chunk, whether this was written or refused. -/
theorem healthy_writeChunk (hsink : w.sink.Healthy) (data : Bytes) (tag : Tag) :
    (w.writeChunk data tag).state.sink.Healthy := by
  by_cases hfits : Fits w.stream data
  · obtain ⟨sink, hwrite, hhealthy, -⟩ := writeChunk_of_fits hsink hfits tag
    rw [hwrite]
    exact hhealthy
  · rw [sink_of_not_fits hfits]
    exact hsink

/-- Writing a chunk keeps the settings. -/
theorem sameSettings_writeChunk (w : Writer) (data : Bytes) (tag : Tag) :
    SameSettings w (w.writeChunk data tag).state where
  own := w.maxChunkLen_writeChunk data tag
  stream := w.stream_maxChunkLen_writeChunk data tag
  full := w.full_writeChunk data tag
  healthy := fun hsink => healthy_writeChunk hsink data tag

/-- So does writing bytes. -/
theorem sameSettings_write (w : Writer) (data : Bytes) : SameSettings w (w.write data).state := by
  rw [write]
  split
  · exact .refl w
  · exact w.sameSettings_writeChunk _ .message

/-- So does writing all of them. -/
theorem sameSettings_writeAll (w : Writer) (data : Bytes) :
    SameSettings w (w.writeAll data).state := by
  fun_induction writeAll w data with
  | case1 w => exact .refl w
  | case2 w data => exact w.sameSettings_write data
  | case3 w data => exact w.sameSettings_write data
  | case4 w data hne written size hresult ih => exact (w.sameSettings_write data).trans ih

/-- So does a flush. -/
theorem sameSettings_flush (w : Writer) : SameSettings w w.flush.state where
  own := rfl
  stream := rfl
  full := w.sink.full_flush
  healthy := by
    intro hsink
    obtain ⟨sink, hflush, hhealthy, -⟩ := hsink.flush
    rw [flush, hflush]
    exact hhealthy

/-- So does finishing. -/
theorem sameSettings_finish (w : Writer) (trailer : Bytes) :
    SameSettings w (w.finish trailer).state := by
  have hlast := w.sameSettings_writeChunk trailer .final
  rw [finish]
  split
  · exact hlast
  · exact hlast.trans (sameSettings_flush _)

end Writer

/-! ## What one call emits -/

/-- **What was emitted** by a call on a writer: whole frames in range. If the sink failed, which a
healthy one does not, then the call failed as well, and a front part of one more frame is behind
them. -/
inductive Emitted {α : Type} (config : Config) (w : Writer) (o : Outcome IoFault Writer α) : Prop
  | whole {frames : List Bytes} (hframes : ∀ frame ∈ frames, FrameInRange config frame)
      (hcontents : o.state.sink.contents = w.sink.contents ++ frames.flatten)
  | cut {frames : List Bytes} {front frame : Bytes} {fault : IoFault} (hsink : ¬w.sink.Healthy)
      (hresult : o.result = .error fault) (hfault : w.sink.FailsWith fault)
      (hframes : ∀ frame ∈ frames, FrameInRange config frame)
      (hframe : FrameInRange config frame) (hfront : front <+: frame)
      (hcontents : o.state.sink.contents = w.sink.contents ++ (frames.flatten ++ front))

namespace Emitted

variable {α β : Type} {w w' : Writer} {o : Outcome IoFault Writer α}
  {o' : Outcome IoFault Writer β}

/-- Nothing was emitted. -/
theorem none (hcontents : o.state.sink.contents = w.sink.contents) : Emitted config w o := by
  have hnone : ∀ frame ∈ ([] : List Bytes), FrameInRange config frame := fun frame hmem =>
    absurd hmem List.not_mem_nil
  exact .whole hnone (by rw [hcontents, List.flatten_nil, List.append_nil])

/-- It is enough to know what the sink holds and how the call failed. -/
theorem congr (h : Emitted config w o)
    (hcontents : o'.state.sink.contents = o.state.sink.contents)
    (hresult : ∀ fault, o.result = .error fault → o'.result = .error fault) :
    Emitted config w o' := by
  cases h with
  | whole hframes hwhole => exact .whole hframes (hcontents.trans hwhole)
  | cut hsink hfailed hfault hframes hframe hfront hcut =>
    exact .cut hsink (hresult _ hfailed) hfault hframes hframe hfront (hcontents.trans hcut)

/-- What a call emits that goes on behind whole frames. -/
theorem behind {frames : List Bytes} (hframes : ∀ frame ∈ frames, FrameInRange config frame)
    (hcontents : w'.sink.contents = w.sink.contents ++ frames.flatten)
    (hsame : SameSettings w w') (h : Emitted config w' o) : Emitted config w o := by
  cases h with
  | @whole later hlater hwhole =>
    refine .whole (List.forall_mem_append.mpr ⟨hframes, hlater⟩) ?_
    rw [hwhole, hcontents, List.flatten_append, List.append_assoc]
  | @cut later front frame fault hsink hfailed hfault hlater hframe hfront hcut =>
    refine .cut (fun hhealthy => hsink (hsame.healthy hhealthy)) hfailed (hsame.failsWith hfault)
      (List.forall_mem_append.mpr ⟨hframes, hlater⟩) hframe hfront ?_
    rw [hcut, hcontents, List.flatten_append]
    simp only [List.append_assoc]

/-- On a healthy sink there are whole frames only. -/
theorem of_healthy (h : Emitted config w o) (hsink : w.sink.Healthy) :
    ∃ frames : List Bytes, o.state.sink.contents = w.sink.contents ++ frames.flatten ∧
      ∀ frame ∈ frames, FrameInRange config frame := by
  cases h with
  | whole hframes hcontents => exact ⟨_, hcontents, hframes⟩
  | cut hbroken => exact absurd hsink hbroken

/-- So there are if the call succeeded. -/
theorem of_ok {a : α} (h : Emitted config w o) (hok : o.result = .ok a) :
    ∃ frames : List Bytes, o.state.sink.contents = w.sink.contents ++ frames.flatten ∧
      ∀ frame ∈ frames, FrameInRange config frame := by
  cases h with
  | whole hframes hcontents => exact ⟨_, hcontents, hframes⟩
  | cut _ hfailed => cases hok.symm.trans hfailed

end Emitted

namespace Writer

variable {w : Writer}

/-- A frame that fits is not written only because the sink fails. -/
theorem failsWith_of_fits {fault : IoFault} (hfits : Fits w.stream plaintext)
    (h : (w.writeChunk plaintext tag).result = .error fault) : w.sink.FailsWith fault := by
  have hsize : ¬UInt32.size ≤ (w.stream.chunk plaintext tag []).length := by
    rw [Stream.length_chunk]
    exact Nat.not_le.mpr hfits.lt_size
  rw [writeChunk, Stream.push_of_le hfits.streaming hfits.le_limit] at h
  simp only [if_neg hsize] at h
  have hfull := w.sink.full_writeAll
    (beBytes lengthBytes (w.stream.chunk plaintext tag []).length)
  rcases hlength : w.sink.writeAll
    (beBytes lengthBytes (w.stream.chunk plaintext tag []).length) with ⟨own | _, sink⟩
  · rw [hlength] at h
    obtain rfl := Except.error.inj h
    exact Sink.fault_of_writeAll hlength
  · rw [hlength] at h hfull
    rcases hchunk : sink.writeAll (w.stream.chunk plaintext tag []) with ⟨own | _, _⟩
    · simp only [hchunk] at h
      obtain rfl := Except.error.inj h
      obtain hzero | hown := Sink.fault_of_writeAll hchunk
      · exact .inl hzero
      · exact .inr (hfull.symm.trans hown)
    · simp only [hchunk] at h
      cases h

/-- **Writing a chunk** emits its frame. If the data are refused, it emits nothing, and if the sink
fails, a front part of the frame. -/
theorem emitted_writeChunk (hlimit : w.stream.maxChunkLen ≤ config.maxChunkLen) (data : Bytes)
    (tag : Tag) : Emitted config w (w.writeChunk data tag) := by
  have hnone : ∀ frame ∈ ([] : List Bytes), FrameInRange config frame := fun frame hmem =>
    absurd hmem List.not_mem_nil
  cases w.put data tag with
  | refused _ _ hsink => exact .none (by rw [hsink])
  | cut hfits hresult hfront hcontents =>
    have hbroken : ¬w.sink.Healthy := by
      intro hhealthy
      obtain ⟨sink, hwrite, -⟩ := writeChunk_of_fits hhealthy hfits tag
      rw [hwrite] at hresult
      cases hresult
    exact .cut hbroken hresult (failsWith_of_fits hfits hresult) hnone
      (frameInRange_of_fits hfits hlimit tag) hfront hcontents
  | gave _ hgave =>
    have hframe := frameInRange_of_fits hgave.fits hlimit tag
    refine .whole (List.forall_mem_singleton.mpr hframe) ?_
    rw [List.flatten_singleton]
    exact hgave.contents

/-- **Writing bytes** emits no frame or one. -/
theorem emitted_write (hlimit : w.stream.maxChunkLen ≤ config.maxChunkLen) (data : Bytes) :
    Emitted config w (w.write data) := by
  rw [write]
  split
  · exact .none rfl
  · refine (emitted_writeChunk hlimit _ .message).congr rfl fun fault hfailed => ?_
    dsimp only
    rw [hfailed]
    rfl

/-- **Writing all bytes** emits one frame behind the other, up to the one at which it fails. -/
theorem emitted_writeAll (hlimit : w.stream.maxChunkLen ≤ config.maxChunkLen) (data : Bytes) :
    Emitted config w (w.writeAll data) := by
  fun_induction writeAll w data with
  | case1 => exact .none rfl
  | case2 w data hne written fault hresult =>
    refine (emitted_write hlimit data).congr rfl fun own hfailed => ?_
    exact (congrArg Except.error (Except.error.inj (hresult.symm.trans hfailed))).symm ▸ rfl
  | case3 w data hne written hresult =>
    refine (emitted_write hlimit data).congr rfl fun own hfailed => ?_
    cases hresult.symm.trans hfailed
  | case4 w data hne written size hresult ih =>
    have hsame := w.sameSettings_write data
    obtain ⟨frames, hcontents, hframes⟩ := (emitted_write hlimit data).of_ok hresult
    have hlater := ih (by rw [hsame.stream]; exact hlimit)
    exact .behind hframes hcontents hsame (hlater.congr rfl fun _ hfailed => hfailed)

/-- **Finishing** emits the final frame, whatever comes of the flush. -/
theorem emitted_finish (hlimit : w.stream.maxChunkLen ≤ config.maxChunkLen) (trailer : Bytes) :
    Emitted config w (w.finish trailer) := by
  refine (emitted_writeChunk hlimit trailer .final).congr (w.contents_finish trailer) ?_
  intro fault hfailed
  rw [finish]
  simp only [hfailed]

end Writer

/-! ## Calls one after the other -/

namespace WriterCall

variable {w : Writer}

/-- No call changes the settings. -/
theorem sameSettings (w : Writer) (c : WriterCall) : SameSettings w (c.on w).state := by
  cases c with
  | writeChunk data tag => exact w.sameSettings_writeChunk data tag
  | write data => exact w.sameSettings_write data
  | writeAll data => exact w.sameSettings_writeAll data
  | flush => exact w.sameSettings_flush
  | finish trailer => exact w.sameSettings_finish trailer

/-- So they are the same behind calls made one after the other. -/
theorem course_sameSettings (calls : List WriterCall) :
    ∀ w : Writer, SameSettings w (Course.state on w calls) := by
  induction calls with
  | nil => exact SameSettings.refl
  | cons c cs ih => exact fun w => (sameSettings w c).trans (ih (c.on w).state)

/-- **One call** emits frames in range, and only a failure of the sink cuts one. -/
theorem emitted (hlimit : w.stream.maxChunkLen ≤ config.maxChunkLen) (c : WriterCall) :
    Emitted config w (c.on w) := by
  cases c with
  | writeChunk data tag => exact w.emitted_writeChunk hlimit data tag
  | write data =>
    refine (w.emitted_write hlimit data).congr rfl fun fault hfailed => ?_
    rw [on, Outcome.result_map, hfailed]
    rfl
  | writeAll data => exact w.emitted_writeAll hlimit data
  | flush => exact .none (Sink.contents_flush w.sink)
  | finish trailer => exact w.emitted_finish hlimit trailer

/-- **On a healthy sink** calls made one after the other emit whole frames in range, and nothing
else, whichever of them fail. -/
theorem course_whole (calls : List WriterCall) :
    ∀ {w : Writer}, w.stream.maxChunkLen ≤ config.maxChunkLen → w.sink.Healthy →
      ∃ frames : List Bytes,
        (Course.state on w calls).sink.contents = w.sink.contents ++ frames.flatten ∧
        ∀ frame ∈ frames, FrameInRange config frame := by
  induction calls with
  | nil =>
    intro w _ _
    exact ⟨[], (List.append_nil _).symm, fun frame hmem => absurd hmem List.not_mem_nil⟩
  | cons c cs ih =>
    intro w hlimit hsink
    have hsame := sameSettings w c
    obtain ⟨frames, hcontents, hframes⟩ := (emitted hlimit c).of_healthy hsink
    obtain ⟨later, hcontents', hlater⟩ :=
      ih (w := (c.on w).state) (by rw [hsame.stream]; exact hlimit) (hsame.healthy hsink)
    refine ⟨frames ++ later, ?_, List.forall_mem_append.mpr ⟨hframes, hlater⟩⟩
    rw [Course.state_cons, hcontents', hcontents, List.flatten_append, List.append_assoc]

end WriterCall

end Frame

end AeadStream
