import AeadStream.Proofs.Frame.Draining

/-!
# The end is authentic

Two ways to read share one reader, and whoever calls may go on after a fault. However the calls
are mixed, and whatever the source does, the end is reported only once a chunk was pulled that is
byte for byte what sending it as the final one emits. From then on the source is left alone.

* `ReaderCall` — a reader's calls as data;
* `ReaderCall.PullsFinal` — the call in which the final chunk is pulled;
* `end_is_authentic` — every course of calls.
-/

namespace AeadStream.Frame

/-! ## A reader's calls -/

/-- **A call on a reader.** -/
inductive ReaderCall
  /-- asks for at most `n` bytes -/
  | read (n : Nat)
  | readChunk
deriving DecidableEq

/-- What a call on a reader gives. -/
inductive Received
  | bytes (got : Bytes)
  | chunk (chunk : Option (Bytes × Tag))
deriving DecidableEq

namespace ReaderCall

/-- Makes the call. -/
def on (c : ReaderCall) (r : Reader) : Outcome IoFault Reader Received :=
  match c with
  | read n => (r.read n).map .bytes
  | readChunk => r.readChunk.map .chunk

/-- **The end is reported:** no byte although some were asked for, or no chunk. -/
def ReportsEnd : ReaderCall → Except IoFault Received → Prop
  | read n, .ok (.bytes got) => n ≠ 0 ∧ got = []
  | readChunk, .ok (.chunk chunk) => chunk = none
  | _, _ => False

/-- How many bytes the call asks for. -/
def asked : ReaderCall → Nat
  | read n => n
  | readChunk => 0

/-- What the call gives behind the end, if this is left to hand over. -/
def given (c : ReaderCall) (unread : Bytes) : Received :=
  match c with
  | read n => .bytes (unread.take n)
  | readChunk => .chunk none

/-- **What calls give** behind the end: what is left to hand over, and then nothing. -/
def served (unread : Bytes) : List ReaderCall → List (Except IoFault Received)
  | [] => []
  | c :: cs => .ok (c.given unread) :: served (unread.drop c.asked) cs

/-! ## The final chunk -/

/-- **The final chunk is next** for this reader, with this plaintext and with these bytes behind
its frame: it is the one that sending the plaintext as the final chunk emits from the stream as it
is now, and it is received as that. -/
structure FinalIsNext (r : Reader) (trailer left : Bytes) : Prop where
  result : r.readChunk.result = .ok (some (trailer, .final))
  sealed : ∃ sealed, (r.stream.push trailer .final []).result = .ok sealed ∧
    (r.stream.pull sealed []).result = .ok (trailer, .final) ∧
    r.source.rest = ofSealed sealed ++ left

/-- **The final chunk is pulled** in a call: at once when a chunk is read, and behind empty chunks
when bytes are read and none are left to hand over. -/
inductive PullsFinal : ReaderCall → Reader → Bytes → Prop
  | readChunk {r : Reader} {trailer : Bytes}
      (hnext : FinalIsNext r trailer (ReaderCall.readChunk.on r).state.source.rest) :
      PullsFinal .readChunk r trailer
  | read {r stop : Reader} {n : Nat} {trailer : Bytes} (hn : n ≠ 0) (hunread : r.unread = [])
      (hpassed : r.PassedOver stop)
      (hnext : FinalIsNext stop trailer ((ReaderCall.read n).on r).state.source.rest) :
      PullsFinal (.read n) r trailer

variable {r : Reader} {c : ReaderCall} {n : Nat} {trailer : Bytes}

/-- A final chunk that was read was next. -/
theorem finalIsNext_of_readChunk (h : r.readChunk.result = .ok (some (trailer, .final))) :
    FinalIsNext r trailer r.readChunk.state.source.rest := by
  obtain ⟨hfits, hrest, -⟩ := Reader.took_of_readChunk h
  refine ⟨h, r.stream.chunk trailer .final [], ?_, ?_, hrest⟩
  · rw [Stream.push_of_le hfits.streaming hfits.le_limit]
  · rw [Stream.pull_chunk hfits.streaming hfits.le_sealedLimit]

/-- A reader that read the final chunk is finished. -/
theorem finished_of_readChunk (h : r.readChunk.result = .ok (some (trailer, .final))) :
    r.readChunk.state.isFinished = true := by
  rw [Reader.isFinished, (Reader.took_of_readChunk h).stream]
  rfl

/-! ## One call -/

/-- **How a call can go,** on a reader that is not finished. -/
inductive Went (c : ReaderCall) (r : Reader) : Prop
  /-- the final chunk does not come, and the end is not reported -/
  | onward (hpulls : ∀ trailer, ¬c.PullsFinal r trailer)
      (hfinished : (c.on r).state.isFinished = false) (hreports : ¬c.ReportsEnd (c.on r).result)
      (htrailer : (c.on r).state.trailer = r.trailer)
  /-- the final chunk is pulled; only reading bytes keeps its plaintext -/
  | ended {trailer : Bytes} (hpulls : c.PullsFinal r trailer)
      (hfinished : (c.on r).state.isFinished = true)
      (htrailer : (c.on r).state.trailer = if c = .readChunk then r.trailer else some trailer)

/-- Reading a chunk goes in one of these ways. -/
theorem went_readChunk (h : r.isFinished = false) : Went .readChunk r := by
  cases r.fetched with
  | finished hfinished => exact absurd hfinished (by rw [h]; decide)
  | failed hphase hresult hstate =>
    refine .onward ?_ ?_ ?_ ?_
    · rintro trailer ⟨hnext⟩
      cases hresult.symm.trans hnext.result
    · rw [on, Outcome.state_map, hstate, ← h]
      rfl
    · rw [on, Outcome.result_map, hresult]
      exact id
    · rw [on, Outcome.state_map, hstate]
  | @took plaintext tag hresult htook hstate =>
    have htrailer : r.readChunk.state.trailer = r.trailer := by rw [hstate]
    by_cases htag : tag = .final
    · subst htag
      exact .ended (.readChunk (finalIsNext_of_readChunk hresult)) (finished_of_readChunk hresult)
        htrailer
    · refine .onward ?_ ?_ ?_ htrailer
      · rintro trailer ⟨hnext⟩
        cases hresult.symm.trans hnext.result
        exact htag rfl
      · rw [on, Outcome.state_map, Reader.isFinished, htook.stream, Stream.phase_advance htag, ← h]
        rfl
      · rw [on, Outcome.result_map, hresult]
        intro hreports
        cases hreports

/-- Behind empty chunks there is one place to stop: where another chunk comes than an empty one
that is not final, the final chunk comes if it is pulled. -/
theorem stop_eq {stop stop' : Reader} (hpassed : r.PassedOver stop)
    (hother : ∀ tag, stop.readChunk.result = .ok (some ([], tag)) → tag = .final)
    (hpassed' : r.PassedOver stop')
    (hread : stop'.readChunk.result = .ok (some (trailer, .final))) : stop' = stop := by
  induction hpassed with
  | refl r =>
    cases hpassed' with
    | refl => rfl
    | step hempty htag => exact absurd (hother _ hempty) htag
  | step hempty htag _ ih =>
    cases hpassed' with
    | refl =>
      cases hempty.symm.trans hread
      exact absurd rfl htag
    | step _ _ hrest => exact ih hother hrest

/-- The final chunk does not come where another chunk or a fault does. -/
theorem not_pullsFinal {stop : Reader} (hpassed : r.PassedOver stop)
    (hempty : ∀ tag, stop.readChunk.result ≠ .ok (some ([], tag)))
    (hfinal : ∀ trailer, stop.readChunk.result ≠ .ok (some (trailer, .final))) :
    ¬(read n).PullsFinal r trailer := by
  rintro (_ | ⟨_, _, hpassed', hnext⟩)
  obtain rfl := stop_eq hpassed (fun tag hread => absurd hread (hempty tag)) hpassed' hnext.result
  exact hfinal _ hnext.result

/-- Reading bytes with none left to hand over goes in one of these ways. -/
theorem went_read_of_empty (h : r.isFinished = false) (hn : n ≠ 0) (hunread : r.unread = []) :
    Went (.read n) r := by
  cases Reader.wentOn hn hunread with
  | finished hfinished => exact absurd hfinished (by rw [h]; decide)
  | @failed stop fault hpassed hread hresult hstate =>
    refine .onward ?_ ?_ ?_ ?_
    · intro trailer
      refine not_pullsFinal hpassed (fun tag hother => ?_) (fun trailer hother => ?_)
      · cases hread.symm.trans hother
      · cases hread.symm.trans hother
    · rw [on, Outcome.state_map, hstate, ← h, ← hpassed.isFinished_eq]
      simp only [Reader.isFinished, Reader.stream_of_error hread]
    · rw [on, Outcome.result_map, hresult]
      exact id
    · rw [on, Outcome.state_map, hstate, Reader.trailer_readChunk, hpassed.trailer_eq]
  | @final stop trailer hpassed hread hresult hstate =>
    have hsource : ((read n).on r).state.source = stop.readChunk.state.source := by
      rw [on, Outcome.state_map, hstate]
    have hpulls : PullsFinal (.read n) r trailer := by
      refine .read hn hunread hpassed ?_
      rw [hsource]
      exact finalIsNext_of_readChunk hread
    refine .ended hpulls ?_ ?_
    · rw [on, Outcome.state_map, hstate]
      exact finished_of_readChunk hread
    · rw [on, Outcome.state_map, hstate]
      have hne : read n ≠ readChunk := by
        intro heq
        cases heq
      exact (if_neg hne).symm
  | @data stop plaintext tag hpassed hread htag hne hresult hstate =>
    refine .onward ?_ ?_ ?_ ?_
    · intro trailer
      refine not_pullsFinal hpassed (fun tag hother => ?_) (fun trailer hother => ?_)
      · cases hread.symm.trans hother
        exact hne rfl
      · cases hread.symm.trans hother
        exact htag rfl
    · rw [on, Outcome.state_map, hstate, ← h, ← hpassed.isFinished_eq]
      simp only [Reader.isFinished, Reader.stream_handedOver, Reader.stream_holding,
        (Reader.took_of_readChunk hread).stream, Stream.phase_advance htag]
    · rw [on, Outcome.result_map, hresult]
      rintro ⟨-, hnil⟩
      exact (List.take_eq_nil_iff.mp hnil).elim hn hne
    · rw [on, Outcome.state_map, hstate]
      show stop.readChunk.state.trailer = r.trailer
      rw [Reader.trailer_readChunk, hpassed.trailer_eq]

/-- Reading bytes goes in one of these ways. -/
theorem went_read (h : r.isFinished = false) (n : Nat) : Went (.read n) r := by
  by_cases hn : n = 0
  · subst hn
    have hread : (read 0).on r = ⟨.ok (.bytes []), r, []⟩ := by
      rw [on, Reader.read_zero]
      rfl
    refine .onward ?_ (by rw [hread, h]) ?_ (by rw [hread])
    · rintro trailer (_ | ⟨hn⟩)
      exact absurd rfl hn
    · rw [hread]
      rintro ⟨hn, -⟩
      exact absurd rfl hn
  by_cases hunread : r.unread = []
  · exact went_read_of_empty h hn hunread
  · have hread : (read n).on r = ⟨.ok (.bytes (r.unread.take n)), r.handedOver n, []⟩ := by
      rw [on, Reader.read_of_unread hn hunread]
      rfl
    refine .onward ?_ (by rw [hread, ← h]; rfl) ?_ (by rw [hread]; rfl)
    · rintro trailer (_ | ⟨_, hempty⟩)
      exact absurd hempty hunread
    · rw [hread]
      rintro ⟨-, hnil⟩
      exact (List.take_eq_nil_iff.mp hnil).elim hn hunread

/-- **One call** goes in one of these ways. -/
theorem went (h : r.isFinished = false) (c : ReaderCall) : Went c r := by
  cases c with
  | read n => exact went_read h n
  | readChunk => exact went_readChunk h

/-- The final chunk is pulled in a call if and only if the call finishes the reader. -/
theorem finished_iff_pullsFinal (h : r.isFinished = false) :
    (c.on r).state.isFinished = true ↔ ∃ trailer, c.PullsFinal r trailer := by
  cases went h c with
  | onward hpulls hfinished =>
    rw [hfinished]
    constructor
    · intro hends
      cases hends
    · rintro ⟨trailer, hpull⟩
      exact absurd hpull (hpulls trailer)
  | ended hpulls hfinished => exact ⟨fun _ => ⟨_, hpulls⟩, fun _ => hfinished⟩

/-- The final chunk is pulled only from a reader that is not finished. -/
theorem PullsFinal.not_finished (h : c.PullsFinal r trailer) : r.isFinished = false := by
  have hstreaming : ∀ {stop : Reader} {left : Bytes}, FinalIsNext stop trailer left →
      stop.isFinished = false := by
    intro stop left hnext
    rw [Reader.isFinished, (Reader.took_of_readChunk hnext.result).fits.streaming]
    rfl
  cases h with
  | readChunk hnext => exact hstreaming hnext
  | read _ _ hpassed hnext => rw [← hpassed.isFinished_eq, hstreaming hnext]

/-- There is one final chunk to pull. -/
theorem PullsFinal.unique {trailer' : Bytes} (h : c.PullsFinal r trailer)
    (h' : c.PullsFinal r trailer') : trailer' = trailer := by
  cases h with
  | readChunk hnext =>
    obtain ⟨hnext'⟩ := h'
    cases hnext.result.symm.trans hnext'.result
    rfl
  | read _ _ hpassed hnext =>
    obtain _ | ⟨_, _, hpassed', hnext'⟩ := h'
    obtain rfl := stop_eq hpassed (fun tag hempty => by cases hnext.result.symm.trans hempty; rfl)
      hpassed' hnext'.result
    cases hnext.result.symm.trans hnext'.result
    rfl

/-! ## Behind the end -/

/-- **Behind the end** a call gives what is left to hand over and changes nothing else. -/
theorem on_of_finished (h : r.isFinished = true) (c : ReaderCall) :
    (c.on r).result = .ok (c.given r.unread) ∧ (c.on r).state = r.handedOver c.asked := by
  cases c with
  | readChunk =>
    rw [on, Reader.readChunk_of_finished h, asked, Reader.handedOver_zero]
    exact ⟨rfl, rfl⟩
  | read n =>
    rw [on, given, asked]
    by_cases hunread : r.unread = []
    · rw [Reader.read_of_finished h hunread, hunread, List.take_nil,
        Reader.handedOver_of_unread hunread]
      exact ⟨rfl, rfl⟩
    · by_cases hn : n = 0
      · subst hn
        rw [Reader.read_zero, Reader.handedOver_zero]
        exact ⟨rfl, rfl⟩
      · rw [Reader.read_of_unread hn hunread]
        exact ⟨rfl, rfl⟩

/-- So do calls made one after the other. -/
theorem course_of_finished (calls : List ReaderCall) :
    ∀ {r : Reader}, r.isFinished = true →
      Course.results on r calls = served r.unread calls ∧
        ∃ position, Course.state on r calls = { r with position } := by
  induction calls with
  | nil =>
    intro r _
    exact ⟨rfl, r.position, rfl⟩
  | cons c cs ih =>
    intro r h
    obtain ⟨hresult, hstate⟩ := on_of_finished h c
    obtain ⟨hresults, position, hlater⟩ := ih (r := r.handedOver c.asked) h
    rw [Reader.unread_handedOver] at hresults
    rw [Course.results_cons, Course.state_cons, served, hresult, hstate]
    exact ⟨congrArg (_ :: ·) hresults, position, hlater⟩

/-- The trailer that a course keeps which begins with pulling the final chunk. -/
theorem trailer_course {calls : List ReaderCall} (h : c.PullsFinal r trailer) :
    (Course.state on (c.on r).state calls).trailer =
      if c = .readChunk then r.trailer else some trailer := by
  cases went h.not_finished c with
  | onward hpulls => exact absurd h (hpulls trailer)
  | ended hpulls hfinished htrailer =>
    obtain ⟨-, position, hlater⟩ := course_of_finished calls hfinished
    obtain rfl := h.unique hpulls
    rw [hlater, htrailer]

/-- A call that reports the end leaves a finished reader. -/
theorem finished_of_reportsEnd (h : c.ReportsEnd (c.on r).result) :
    (c.on r).state.isFinished = true := by
  cases hfinished : r.isFinished with
  | true =>
    rw [(on_of_finished hfinished c).2]
    exact hfinished
  | false =>
    cases went hfinished c with
    | onward _ _ hreports => exact absurd h hreports
    | ended _ hends => exact hends

/-! ## Courses of calls -/

/-- **The final chunk was pulled** in one of these calls. -/
def PulledFinal (first : Reader) (calls : List ReaderCall) : Prop :=
  ∃ front c back trailer, calls = front ++ c :: back ∧
    c.PullsFinal (Course.state on first front) trailer

/-- **A course finishes a reader** if and only if the final chunk is pulled in one of its calls. -/
theorem finished_iff_pulledFinal (calls : List ReaderCall) :
    ∀ {r : Reader}, r.isFinished = false →
      ((Course.state on r calls).isFinished = true ↔ PulledFinal r calls) := by
  induction calls with
  | nil =>
    intro r h
    rw [Course.state_nil, h]
    constructor
    · intro hfinished
      cases hfinished
    · rintro ⟨front, c, back, _, hcalls, -⟩
      exact absurd hcalls.symm (List.append_ne_nil_of_right_ne_nil front (List.cons_ne_nil c back))
  | cons c cs ih =>
    intro r h
    rw [Course.state_cons]
    cases hnext : (c.on r).state.isFinished with
    | true =>
      -- the first call pulls the final chunk, and the reader stays finished
      obtain ⟨-, position, hlater⟩ := course_of_finished cs hnext
      obtain ⟨trailer, hpulls⟩ := (finished_iff_pullsFinal h).mp hnext
      rw [hlater]
      exact ⟨fun _ => ⟨[], c, cs, trailer, rfl, hpulls⟩, fun _ => hnext⟩
    | false =>
      rw [ih hnext]
      constructor
      · rintro ⟨front, d, back, trailer, rfl, hpulls⟩
        exact ⟨c :: front, d, back, trailer, rfl, hpulls⟩
      · rintro ⟨front, d, back, trailer, hcalls, hpulls⟩
        cases front with
        | nil =>
          obtain ⟨rfl, -⟩ := List.cons.inj hcalls
          rw [(finished_iff_pullsFinal h).mpr ⟨trailer, hpulls⟩] at hnext
          cases hnext
        | cons first front =>
          obtain ⟨rfl, hcs⟩ := List.cons.inj hcalls
          exact ⟨front, d, back, trailer, hcs, hpulls⟩

/-- As long as a reader is not finished, no trailer is kept. -/
theorem trailer_of_not_finished (calls : List ReaderCall) :
    ∀ {r : Reader}, (Course.state on r calls).isFinished = false →
      r.isFinished = false ∧ (Course.state on r calls).trailer = r.trailer := by
  induction calls with
  | nil =>
    intro r h
    exact ⟨h, rfl⟩
  | cons c cs ih =>
    intro r h
    obtain ⟨hnext, htrailer⟩ := ih h
    cases hfinished : r.isFinished with
    | true =>
      rw [(on_of_finished hfinished c).2] at hnext
      exact absurd (hfinished.symm.trans hnext) nofun
    | false =>
      refine ⟨rfl, htrailer.trans ?_⟩
      cases went hfinished c with
      | onward _ _ _ hsame => exact hsame
      | ended _ hends => exact absurd (hends.symm.trans hnext) nofun

/-- **The trailer** of a course is the plaintext of the final chunk, if reading bytes arrived at
it. -/
theorem trailer_iff {calls : List ReaderCall} (h : r.isFinished = false) (hnone : r.trailer = none) :
    (Course.state on r calls).trailer = some trailer ↔
      ∃ front n back, calls = front ++ .read n :: back ∧
        (read n).PullsFinal (Course.state on r front) trailer := by
  constructor
  · intro htrailer
    cases hfinished : (Course.state on r calls).isFinished with
    | false =>
      rw [(trailer_of_not_finished calls hfinished).2, hnone] at htrailer
      cases htrailer
    | true =>
      obtain ⟨front, c, back, trailer', rfl, hpulls⟩ :=
        (finished_iff_pulledFinal calls h).mp hfinished
      rw [Course.state_append, Course.state_cons, trailer_course hpulls] at htrailer
      cases c with
      | readChunk =>
        rw [if_pos rfl, (trailer_of_not_finished front hpulls.not_finished).2, hnone] at htrailer
        cases htrailer
      | read n =>
        rw [if_neg nofun] at htrailer
        cases htrailer
        exact ⟨front, n, back, rfl, hpulls⟩
  · rintro ⟨front, n, back, rfl, hpulls⟩
    rw [Course.state_append, Course.state_cons, trailer_course hpulls, if_neg nofun]

end ReaderCall

/-! ## The end -/

/-- **The end of a reader is authentic** after these calls. -/
structure EndsAuthentically (first : Reader) (calls : List ReaderCall) : Prop where
  /-- it is finished from the call on in which the final chunk was pulled -/
  finished_iff : (Course.state ReaderCall.on first calls).isFinished = true ↔
    ReaderCall.PulledFinal first calls
  /-- one more call reports the end only if the final chunk was pulled before or is pulled in it -/
  reported : ∀ c : ReaderCall,
    c.ReportsEnd (c.on (Course.state ReaderCall.on first calls)).result →
    ReaderCall.PulledFinal first (calls ++ [c])
  /-- behind the end, calls give what is left to hand over and change nothing else, whatever the
  source now does -/
  behind : (Course.state ReaderCall.on first calls).isFinished = true →
    ∀ (source : Source) (more : List ReaderCall),
      Course.results ReaderCall.on { Course.state ReaderCall.on first calls with source } more =
        ReaderCall.served (Course.state ReaderCall.on first calls).unread more ∧
      ∃ position, Course.state ReaderCall.on
          { Course.state ReaderCall.on first calls with source } more =
        { Course.state ReaderCall.on first calls with source, position }
  /-- the trailer is the plaintext of the final chunk, once reading bytes arrived at it -/
  trailer_iff : ∀ trailer : Bytes,
    (Course.state ReaderCall.on first calls).trailer = some trailer ↔
      ∃ front n back, calls = front ++ .read n :: back ∧
        (ReaderCall.read n).PullsFinal (Course.state ReaderCall.on first front) trailer

/-- **The end is authentic.** Whatever a source holds and however it gives it, and however calls
for bytes and for chunks are mixed on a reader that began on it, faults or not: the end is
reported only once a chunk was pulled that is the one which sending it as the final chunk emits,
and from then on the source is left alone. -/
theorem end_is_authentic {source : Source} {key : SessionKey} {config : Config} {reader : Reader}
    (hstart : (Reader.start source key config).result = .ok reader) (calls : List ReaderCall) :
    EndsAuthentically reader calls := by
  obtain ⟨hphase, htrailer⟩ := Reader.not_finished_of_start hstart
  refine ⟨ReaderCall.finished_iff_pulledFinal calls hphase, ?_, ?_, ?_⟩
  · intro c hreports
    rw [← ReaderCall.finished_iff_pulledFinal _ hphase, Course.state_append]
    exact ReaderCall.finished_of_reportsEnd hreports
  · intro hfinished source more
    exact ReaderCall.course_of_finished more hfinished
  · intro trailer
    exact ReaderCall.trailer_iff hphase htrailer

/-- A source that is interrupted and then gives three bytes. Behind a header it holds the length
sixteen and the frames of two bytes and of a trailer, and then it fails. -/
def unplugged : Source where
  rest := (Octets.zero 24).bytes ++ ([0, 0, 0, 16] ++
    (wire (.fresh (.zero 32) (.zero 24) {}) [([1, 2], .message), ([3], .final)] ++ []))
  turns := [.interrupt, .upTo 3]
  stop := some (73, .device "unplugged")

theorem delivers_unplugged : unplugged.Delivers unplugged.rest (some (.device "unplugged")) := by
  have hturns : Turn.upTo 0 ∉ unplugged.turns := by decide
  have hstride : unplugged.stride ≠ some 0 := by decide
  refine ⟨hturns, hstride, .failed ?_ (List.append_nil _).symm⟩
  rw [unplugged, List.length_append, List.length_append, List.append_nil, length_wire,
    Octets.length_bytes]
  rfl

/-- A reader that begins on it finds no chunk of the first length, and then has both frames
ahead. -/
theorem exists_reader_of_unplugged :
    ∃ r r' : Reader, (Reader.start unplugged (.zero 32) {}).result = .ok r ∧ r.unread = [] ∧
      r.readChunk = ⟨.error (.stream (.malformedChunk 16)), r', []⟩ ∧ r'.unread = [] ∧
      r'.Ahead [([1, 2], .message), ([3], .final)] [] (some (.device "unplugged")) := by
  have hfit : AllFit (.fresh (.zero 32) (.zero 24) {}) ([([1, 2], .message)] ++ [([3], .final)]) :=
    allFit_whole rfl (by decide) (by decide) (by decide)
  obtain ⟨source, hbegun, hnext⟩ := Reader.start_of_delivers delivers_unplugged (.zero 32) {}
  generalize Stream.fresh (.zero 32) (.zero 24) {} = s at hfit hbegun hnext
  have hstart := congrArg Outcome.result hbegun
  have hgoing := (Reader.not_finished_of_start hstart).1
  obtain ⟨left, hlength, hleft⟩ := hnext.readExact
  have hwritten : source.readExact lengthBytes = (.ok [0, 0, 0, 16], left) := hlength
  refine ⟨_, .upon left s, hstart, rfl, ?_, rfl, Reader.limitsAgree_upon .., hfit, hleft⟩
  rw [Reader.readChunk, hgoing, if_neg Bool.false_ne_true, Reader.source_upon, hwritten]
  exact if_pos (.inl (by decide))

/-- The first read fails, for no frame has this length. The next one takes one of the two bytes and
another one takes the rest. Then the final frame is reached, whose plaintext is the trailer, and the
calls go on behind it. -/
theorem end_is_authentic_behind_a_fault :
    ∃ reader : Reader, (Reader.start unplugged (.zero 32) {}).result = .ok reader ∧
      Course.results ReaderCall.on reader
          [.read 1, .read 1, .read 4, .read 4, .readChunk, .read 4] =
        [.error (.stream (.malformedChunk 16)), .ok (.bytes [1]), .ok (.bytes [2]),
          .ok (.bytes []), .ok (.chunk none), .ok (.bytes [])] ∧
      (Course.state ReaderCall.on reader
        [.read 1, .read 1, .read 4, .read 4, .readChunk, .read 4]).trailer = some [3] ∧
      EndsAuthentically reader [.read 1, .read 1, .read 4, .read 4, .readChunk, .read 4] := by
  obtain ⟨r, r', hstart, hunread, hfirst, hunread', hahead⟩ := exists_reader_of_unplugged
  have hreadFirst := Reader.read_of_error (n := 1) (by decide) hunread hfirst
  -- two reads take the first frame
  obtain ⟨hresult₁, hunread₁, hahead₁⟩ :=
    hahead.read_data (n := 1) (by decide) hunread' (by decide) (by decide)
  obtain ⟨hresult₂, hunread₂, hahead₂⟩ :=
    hahead₁.read_unread (n := 4) (by decide) (by rw [hunread₁]; decide)
  rw [hunread₁] at hresult₂ hunread₂
  -- the third one reaches the final frame
  obtain ⟨hresult₃, hunread₃, htrailer, hfinished⟩ :=
    hahead₂.read_final (n := 4) (by decide) hunread₂
  have hresults : Course.results ReaderCall.on r [.read 1, .read 1, .read 4, .read 4] =
      [.error (.stream (.malformedChunk 16)), .ok (.bytes [1]), .ok (.bytes [2]),
        .ok (.bytes [])] := by
    simp only [Course.results_cons, ReaderCall.on, Outcome.result_map, Outcome.state_map,
      hreadFirst, hresult₁, hresult₂, hresult₃]
    rfl
  have hreached : Course.state ReaderCall.on r [.read 1, .read 1, .read 4, .read 4] =
      (((r'.read 1).state.read 4).state.read 4).state := by
    simp only [Course.state_cons, ReaderCall.on, Outcome.state_map, hreadFirst]
    rfl
  -- and behind it nothing comes
  obtain ⟨hbehind, position, hkept⟩ :=
    ReaderCall.course_of_finished [.readChunk, .read 4] hfinished
  have hcalls : ([.read 1, .read 1, .read 4, .read 4, .readChunk, .read 4] : List ReaderCall) =
    [.read 1, .read 1, .read 4, .read 4] ++ [.readChunk, .read 4] := rfl
  refine ⟨_, hstart, ?_, ?_, end_is_authentic hstart _⟩
  · rw [hcalls, Course.results_append, hresults, hreached, hbehind, hunread₃]
    rfl
  · rw [hcalls, Course.state_append, hreached, hkept]
    exact htrailer

end AeadStream.Frame
