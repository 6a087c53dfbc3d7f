import AeadStream.Proofs.Frame.Emission
import AeadStream.Proofs.Frame.Ending
import AeadStream.Proofs.Frame.RoundTrip

/-!
# Lengths of frames

The length in front of a chunk is checked by the reader before the chunk is read, and once more by
the stream and by the cipher when it is opened. Each of them has a limit of its own, and all of them
accept the same lengths, which are those of the chunks that a sender under the same limit emits.

* `Reader.Checks` — a reader whose limits are those of its settings;
* `Reader.readChunk_of_not_inRange`, `Reader.arrived` — a frame whose length is out of range, and
  what comes of one whose length is in range;
* `length_checks_agree` — every reader and every writer.
-/

namespace AeadStream

/-! ## Chunks of a length in range -/

/-- A stream never takes a length in range for one out of range. -/
theorem Stream.pull_ne_malformed {s : Stream} {sealed : Bytes}
    (hmin : chunkOverhead ≤ sealed.length) (hmax : sealed.length ≤ s.sealedLimit) (aad : Bytes)
    (length : Nat) : (s.pull sealed aad).result ≠ .error (.malformedChunk length) := by
  have hpull := s.pulled sealed aad
  generalize s.pull sealed aad = pulled at hpull
  intro h
  cases hpull with
  | finalized => cases h
  | malformed _ hout =>
    obtain hlt | hlt := hout
    · omega
    · omega
  | forged => cases h
  | unknownTag => cases h
  | accepted => cases h

/-- The cipher never takes a chunk that holds the overhead for one that is too short. -/
theorem openChunk_ne_tooShort {sealed : Bytes} (hmin : chunkOverhead ≤ sealed.length)
    (subkey : Subkey) (nonce : Nonce) (aad : Bytes) (expected length : Nat) :
    openChunk subkey nonce sealed aad ≠ .error (.tooShort expected length) := by
  intro h
  obtain ⟨hlt, -⟩ | ⟨-, hother⟩ := openChunk_eq_error h
  · omega
  · cases hother

namespace Frame

variable {config : Config} {plaintext written : Bytes} {tag : Tag}

/-! ## Reading -/

namespace Reader

variable {r : Reader} {behind : Source}

/-- **The limits of a reader are those of its settings,** its own and that of its stream. -/
structure Checks (config : Config) (r : Reader) : Prop where
  own : r.maxSealedLen = Config.sealedLimit config.maxChunkLen
  stream : r.stream.maxChunkLen = config.maxChunkLen

namespace Checks

/-- They are in the beginning. -/
theorem of_start {source : Source} {key : SessionKey}
    (h : (start source key config).result = .ok r) : Checks config r := by
  obtain ⟨header, -, hstream⟩ := took_of_start h
  exact ⟨(limitsAgree_of_start h).2, by rw [hstream]; rfl⟩

theorem readChunk (h : Checks config r) : Checks config r.readChunk.state :=
  ⟨r.maxSealedLen_readChunk.trans h.own, r.maxChunkLen_readChunk.trans h.stream⟩

/-- They are behind a read as well, however many chunks it takes. -/
theorem read (h : Checks config r) (n : Nat) : Checks config (r.read n).state := by
  fun_induction Reader.read r n with
  | case1 => exact h
  | case2 => exact ⟨h.own, h.stream⟩
  | case3 => exact h.readChunk
  | case4 => exact h.readChunk
  | case5 => exact ⟨h.readChunk.own, h.readChunk.stream⟩
  | case6 r hn hleft chunk plaintext tag htag hresult ih =>
    exact ih ⟨h.readChunk.own, h.readChunk.stream⟩

/-- And so they are behind calls made one after the other. -/
theorem course (h : Checks config r) (calls : List ReaderCall) :
    Checks config (Course.state ReaderCall.on r calls) := by
  induction calls generalizing r with
  | nil => exact h
  | cons c cs ih =>
    cases c with
    | read n => exact ih (h.read n)
    | readChunk => exact ih h.readChunk

/-- The limits of such a reader agree. -/
theorem limitsAgree (h : Checks config r) : r.LimitsAgree := by
  rw [LimitsAgree, h.own, Stream.sealedLimit, h.stream]

end Checks

/-- **A frame whose length is out of range** is refused: its length was taken from the source, and
nothing else changes. -/
theorem readChunk_of_not_inRange (hlimit : Checks config r) (hgoing : r.isFinished = false)
    (hwritten : r.source.readExact lengthBytes = (.ok written, behind))
    (h : ¬InRange config (natOfBe written)) :
    r.readChunk =
      ⟨.error (.stream (.malformedChunk (natOfBe written))), { r with source := behind }, []⟩ := by
  rw [not_inRange_iff, ← hlimit.own] at h
  rw [readChunk, hgoing]
  simp only [Bool.false_eq_true, if_false, hwritten]
  exact if_pos h

/-- **What comes of a frame** of this length, if its length was taken and is in range. -/
inductive Arrived (r : Reader) (behind : Source) (length : Nat) :
    Outcome IoFault Reader (Option (Bytes × Tag)) → Prop
  /-- its bytes run out -/
  | short {source : Source} {fault : IoFault}
      (hread : behind.readExact length = (.error fault, source)) :
      Arrived r behind length ⟨.error .truncated, { r with source }, []⟩
  /-- the source fails before they are there -/
  | broken {source : Source} {own : IoFault}
      (hread : behind.readExact length = (.error own, source))
      (hown : r.source.ownFault = some own) :
      Arrived r behind length ⟨.error own, { r with source }, []⟩
  /-- they were not sealed for this place -/
  | forged {source : Source} {sealed : Bytes} (hrest : behind.rest = sealed ++ source.rest)
      (hlength : sealed.length = length) :
      Arrived r behind length ⟨.error (.stream .authentication), { r with source },
        [.chunkRejected r.stream.epoch r.stream.counter length]⟩
  /-- they were sealed for this place with a byte that stands for no tag -/
  | unknownTag {source : Source} {sealed : Bytes} {raw : UInt8}
      (hrest : behind.rest = sealed ++ source.rest) (hlength : sealed.length = length)
      (hraw : Tag.ofByte? raw = none) :
      Arrived r behind length ⟨.error (.stream (.unknownTag raw)), { r with source }, []⟩
  /-- they are the next chunk -/
  | taken {source : Source} {sealed : Bytes} {plaintext : Bytes} {tag : Tag}
      (hrest : behind.rest = sealed ++ source.rest) (hlength : sealed.length = length) :
      Arrived r behind length ⟨.ok (some (plaintext, tag)),
        { r with source, stream := (r.stream.advance tag).1 }, (r.stream.advance tag).2⟩

/-- **A frame whose length is in range** comes to one of these. -/
theorem arrived (hlimit : Checks config r) (hgoing : r.isFinished = false)
    (hwritten : r.source.readExact lengthBytes = (.ok written, behind))
    (h : InRange config (natOfBe written)) : Arrived r behind (natOfBe written) r.readChunk := by
  obtain ⟨hmin, hmax⟩ := h
  rw [← hlimit.own] at hmax
  have hrange : ¬(natOfBe written < chunkOverhead ∨ r.maxSealedLen < natOfBe written) :=
    not_or.mpr ⟨Nat.not_lt.mpr hmin, Nat.not_lt.mpr hmax⟩
  have hown : behind.ownFault = r.source.ownFault := by
    have hkept := r.source.ownFault_readExact lengthBytes
    rwa [hwritten] at hkept
  rw [readChunk, hgoing]
  simp only [Bool.false_eq_true, if_false, hwritten, if_neg hrange]
  rcases hread : behind.readExact (natOfBe written) with ⟨own | sealed, source⟩
  · -- the chunk does not come
    dsimp only
    rw [IoFault.insideStream]
    split
    · exact .short hread
    · next hkind =>
      obtain rfl | hfault := Source.fault_of_readExact hread
      · exact absurd rfl hkind
      · exact .broken hread (hown ▸ hfault)
  · obtain ⟨hrest, hlength⟩ := Source.readExact_eq_ok hread
    have hpull := r.stream.pulled sealed []
    dsimp only
    generalize r.stream.pull sealed [] = pulled at hpull
    cases hpull with
    | finalized hphase =>
      rw [isFinished, hphase] at hgoing
      cases hgoing
    | malformed _ hout =>
      -- the stream has the same limit
      rw [hlength, ← hlimit.limitsAgree] at hout
      exact absurd hout hrange
    | forged =>
      rw [hlength]
      exact .forged hrest hlength
    | unknownTag _ _ _ hraw => exact .unknownTag hrest hlength hraw
    | accepted => exact .taken hrest hlength

end Reader

/-! ## All checks agree -/

/-- **How lengths are checked** by a reader that just took the four bytes of one. -/
structure LengthChecked (config : Config) (r : Reader) (written : Bytes) (behind : Source) :
    Prop where
  /-- the reader's own limit on sealed chunks is still what the settings come to -/
  own : r.maxSealedLen = Config.sealedLimit config.maxChunkLen
  /-- so is that of its stream -/
  stream : r.stream.sealedLimit = Config.sealedLimit config.maxChunkLen
  /-- just these four bytes were taken -/
  taken : r.source.rest = written ++ behind.rest ∧ written.length = lengthBytes
  /-- out of range, nothing more is taken, and nothing else changes -/
  refused : ¬InRange config (natOfBe written) → r.readChunk =
    ⟨.error (.stream (.malformedChunk (natOfBe written))), { r with source := behind }, []⟩
  /-- the length is refused in no other case, unless the source itself fails in these words -/
  refused_iff : r.source.ownFault ≠ some (.stream (.malformedChunk (natOfBe written))) →
    (r.readChunk.result = .error (.stream (.malformedChunk (natOfBe written))) ↔
      ¬InRange config (natOfBe written))
  /-- in range, the frame goes on to come in or not -/
  arrived : InRange config (natOfBe written) →
    Reader.Arrived r behind (natOfBe written) r.readChunk
  /-- in range, neither the stream nor the cipher finds fault with the length -/
  accepted : InRange config (natOfBe written) →
    ∀ sealed : Bytes, sealed.length = natOfBe written →
      (∀ aad length, (r.stream.pull sealed aad).result ≠ .error (.malformedChunk length)) ∧
      ∀ subkey nonce aad expected length,
        openChunk subkey nonce sealed aad ≠ .error (.tooShort expected length)

/-- So does every reader that goes on under these settings. -/
theorem lengthChecked {r : Reader} {behind : Source} (hlimit : r.Checks config)
    (hgoing : r.isFinished = false)
    (hwritten : r.source.readExact lengthBytes = (.ok written, behind)) :
    LengthChecked config r written behind where
  own := hlimit.own
  stream := by rw [Stream.sealedLimit, hlimit.stream]
  taken := Source.readExact_eq_ok hwritten
  refused := Reader.readChunk_of_not_inRange hlimit hgoing hwritten
  refused_iff := by
    intro hown
    constructor
    · intro hresult hrange
      have harrived := Reader.arrived hlimit hgoing hwritten hrange
      generalize r.readChunk = o at hresult harrived
      cases harrived with
      | short => cases hresult
      | broken _ hfault => exact hown (hfault.trans (congrArg some (Except.error.inj hresult)))
      | forged => cases hresult
      | unknownTag => cases hresult
      | taken => cases hresult
    · intro hrange
      rw [Reader.readChunk_of_not_inRange hlimit hgoing hwritten hrange]
  arrived := Reader.arrived hlimit hgoing hwritten
  accepted := by
    rintro ⟨hmin, hmax⟩ sealed hlength
    rw [← hlength] at hmin hmax
    rw [← hlimit.stream] at hmax
    exact ⟨Stream.pull_ne_malformed hmin hmax, openChunk_ne_tooShort hmin⟩

/-- **What a writer emits** in these calls, as a reader under `config` sees it. -/
structure EmitsInRange (config : Config) (first : Writer) (calls : List WriterCall) : Prop where
  /-- the limit by which bytes are cut is that which the stream checks, whatever was called -/
  limits : (Course.state WriterCall.on first calls).LimitsAgree
  /-- each call emits whole frames in range, and only a failure of the sink cuts one -/
  each : ∀ front c back, calls = front ++ c :: back →
    Emitted config (Course.state WriterCall.on first front)
      (c.on (Course.state WriterCall.on first front))
  /-- on a healthy sink there is nothing but whole frames in range, whichever calls fail -/
  whole : first.sink.Healthy → ∃ frames : List Bytes,
    (Course.state WriterCall.on first calls).sink.contents =
      first.sink.contents ++ frames.flatten ∧
    ∀ frame ∈ frames, FrameInRange config frame

/-- Every writer emits such frames whose limit is not above that of the reader. -/
theorem emitsInRange {first : Writer} (hlimits : first.LimitsAgree)
    (hlimit : first.stream.maxChunkLen ≤ config.maxChunkLen) (calls : List WriterCall) :
    EmitsInRange config first calls where
  limits := (WriterCall.course_sameSettings calls first).limitsAgree hlimits
  each := by
    rintro front c back -
    refine WriterCall.emitted ?_ c
    rw [(WriterCall.course_sameSettings front first).stream]
    exact hlimit
  whole := WriterCall.course_whole calls hlimit

/-- **All checks of a length agree.** Under every limit, a reader that was started and then called
on in any way refuses the length that it took from its source just if it is out of range. If it is
not, the stream and the cipher find no fault with it: the frame comes in, or its bytes run out, or
the source fails, or, with all of them taken, they are not authentic or have a tag that there is
not. And whatever the calls are on a writer whose limit is not above that of the reader, all that
each of them puts behind the header are whole frames in range, and if it fails because the sink
does, a front part of one more. -/
theorem length_checks_agree (config : Config) :
    (∀ {source : Source} {key : SessionKey} {first r : Reader} {calls : List ReaderCall}
        {written : Bytes} {behind : Source}, (Reader.start source key config).result = .ok first →
      r = Course.state ReaderCall.on first calls → r.isFinished = false →
      r.source.readExact lengthBytes = (.ok written, behind) →
      LengthChecked config r written behind) ∧
    ∀ {ρ : Type} [Entropy ρ] {random : ρ} {sink : Sink} {key : SessionKey} {settings : Config}
        {first : Writer}, (Writer.start sink key random settings).result = .ok first →
      settings.maxChunkLen ≤ config.maxChunkLen →
      ∀ calls : List WriterCall, EmitsInRange config first calls := by
  refine ⟨?_, ?_⟩
  · rintro source key first r calls written behind hstart rfl hgoing hwritten
    exact lengthChecked ((Reader.Checks.of_start hstart).course calls) hgoing hwritten
  · intro ρ _ random sink key settings first hstart hlimit calls
    obtain ⟨hlimits, hown⟩ := Writer.limitsAgree_of_start hstart
    refine emitsInRange hlimits ?_ calls
    rw [← hlimits, hown]
    exact hlimit

/-- A reader without a limit takes the length sixteen and refuses it. A writer under a limit of two
bytes writes two, is refused three, and finishes: it puts two whole frames behind its header. -/
theorem length_checks_agree_on_sixteen :
    ∃ (first : Reader) (behind : Source) (writer : Writer),
      (Reader.start (.ofBytes ((Octets.zero 24).bytes ++ [0, 0, 0, 16])) (.zero 32)
        { maxChunkLen := 18446744073709551615 }).result = .ok first ∧
      first.isFinished = false ∧
      first.source.readExact lengthBytes = (.ok [0, 0, 0, 16], behind) ∧
      first.readChunk =
        ⟨.error (.stream (.malformedChunk 16)), { first with source := behind }, []⟩ ∧
      (Writer.start {} (.zero 32) (Tape.mk (Octets.zero 24).bytes) { maxChunkLen := 2 }).result =
        .ok writer ∧
      writer.sink.Healthy ∧
      Course.results WriterCall.on writer
          [.writeChunk [1, 2] .push, .writeChunk [1, 2, 3] .message, .finish []] =
        [.ok (), .error (.stream (.tooLong 3 2)), .ok ()] ∧
      EmitsInRange { maxChunkLen := 18446744073709551615 } writer
        [.writeChunk [1, 2] .push, .writeChunk [1, 2, 3] .message, .finish []] := by
  obtain ⟨hreader, hwriter⟩ := length_checks_agree { maxChunkLen := 18446744073709551615 }
  obtain ⟨source, hstart, hhealthy, hrest⟩ := Reader.start_of_rest
    (Source.healthy_ofBytes ((Octets.zero 24).bytes ++ [0, 0, 0, 16])) rfl (.zero 32)
    { maxChunkLen := 18446744073709551615 }
  have hfour : source.rest = [0, 0, 0, 16] ++ [] := hrest
  obtain ⟨behind, hwritten, -⟩ := (hhealthy.delivers hfour).readExact
  have hgoing := (Reader.not_finished_of_start hstart).1
  have hshort : ¬InRange { maxChunkLen := 18446744073709551615 } (natOfBe [0, 0, 0, 16]) :=
    not_inRange_iff.mpr (.inl (by decide))
  have hnone : ∀ r : Reader, r = Course.state ReaderCall.on r [] := fun r => rfl
  -- the writer, and its stream behind two bytes
  have hdraw : (Entropy.draw (Tape.mk (Octets.zero 24).bytes) 24).1 = .ok (Octets.zero 24) := rfl
  have hconfig : ({ maxChunkLen := 2 } : Config).maxChunkLen ≠ 0 := by decide
  obtain ⟨sink, hbegun, hsink, -⟩ :=
    Writer.start_of_draw hdraw hconfig Sink.healthy_empty (.zero 32)
  have hfit : AllFit (.fresh (.zero 32) (.zero 24) { maxChunkLen := 2 })
      ([([1, 2], .push)] ++ [([], .final)]) :=
    allFit_whole rfl (by decide) (by decide) (by decide)
  have hemits := hwriter hbegun (by decide)
    [.writeChunk [1, 2] .push, .writeChunk [1, 2, 3] .message, .finish []]
  obtain ⟨hdata, _ | ⟨hlast, -⟩⟩ := allFit_append.mp hfit
  have hsize : 2 + chunkOverhead < UInt32.size := by decide
  obtain ⟨hoffered, hsink', hstream, -⟩ :=
    Writer.course_offered [([1, 2], .push), ([1, 2, 3], .message)] hsize (by decide)
      (w := .upon sink (.fresh (.zero 32) (.zero 24) { maxChunkLen := 2 })) hsink rfl rfl
  have hfinish := (Writer.finish_of_fits hsink' (by rw [hstream]; exact hlast)).1
  have hresults : Course.results WriterCall.on
      (.upon sink (.fresh (.zero 32) (.zero 24) { maxChunkLen := 2 }))
      [.writeChunk [1, 2] .push, .writeChunk [1, 2, 3] .message, .finish []] =
      [.ok (), .error (.stream (.tooLong 3 2)), .ok ()] :=
    congrArg₂ (· ++ [·]) hoffered hfinish
  refine ⟨_, behind, _, hstart, hgoing, hwritten, ?_, hbegun, hsink, hresults, hemits⟩
  exact (hreader hstart (hnone _) hgoing hwritten).refused hshort

end Frame

end AeadStream
