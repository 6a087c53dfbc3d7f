import AeadStream.Pipe
import AeadStream.Proofs.Epilogue
import AeadStream.Proofs.Frame.Wire
import AeadStream.Proofs.Preamble

/-!
# The course of decryption

Decryption reads the frames of data that its source delivers and hands on their plaintexts, and
then it depends on what comes behind them: a final frame, whose trailer the plaintext is checked
against, or a fault.

* `readPieces_of_ahead` — the frames of data that are there;
* `decrypt_whole`, `decrypt_fault`, `decrypt_short` — the ways in which decryption can go on;
* `decryptWithPassword_of_delivers` — under a password it goes on behind the preamble.
-/

namespace AeadStream.Pipe

open AeadStream.Frame

variable {frames : List (Bytes × Tag)} {ending : Option IoFault} {back : Bytes}

/-! ## The check -/

/-- **The check** accepts an epilogue that is there and matches. -/
theorem check_eq_ok_iff {plaintext trailer : Bytes} {epilogue : Epilogue} :
    check plaintext trailer = .ok epilogue ↔
      Epilogue.decode trailer = .ok epilogue ∧ epilogue.Matches plaintext := by
  rw [check]
  cases Epilogue.decode trailer with
  | error fault =>
    constructor
    · intro h
      cases h
    · rintro ⟨h, -⟩
      cases h
  | ok decoded =>
    dsimp only
    constructor
    · intro h
      split at h
      · cases h
      · next hsize =>
        split at h
        · cases h
        · next hsha256 =>
          obtain rfl := Except.ok.inj h
          exact ⟨rfl, Classical.not_not.mp hsize, Classical.not_not.mp hsha256⟩
    · rintro ⟨h, hsize, hsha256⟩
      obtain rfl := Except.ok.inj h
      rw [if_neg (Classical.not_not.mpr hsize), if_neg (Classical.not_not.mpr hsha256)]

/-! ## Reading pieces -/

section

variable {r next : Reader} {sink sink' : Sink} {done : List Bytes} {events : List Event}

/-- A frame of data is read and its plaintext is handed on. -/
theorem readPieces_data {plaintext : Bytes} {tag : Tag}
    (hread : r.readChunk = ⟨.ok (some (plaintext, tag)), next, events⟩) (htag : tag ≠ .final)
    (hwrite : sink.writeAll plaintext = (.ok (), sink')) :
    readPieces r sink done = (readPieces next sink' (plaintext :: done)).after events := by
  rw [readPieces]
  split
  · next hresult => rw [hread] at hresult; cases hresult
  · next hresult => rw [hread] at hresult; cases hresult
  · next hresult =>
    rw [hread] at hresult
    exact absurd (Prod.mk.inj (Option.some.inj (Except.ok.inj hresult))).2 htag
  · next hresult =>
    rw [hread] at hresult
    obtain ⟨rfl, -⟩ := Prod.mk.inj (Option.some.inj (Except.ok.inj hresult))
    rw [hwrite, hread]

/-- At the final frame the pieces are complete. -/
theorem readPieces_final {trailer : Bytes}
    (hread : r.readChunk = ⟨.ok (some (trailer, .final)), next, events⟩) :
    readPieces r sink done = ⟨.ok (done, trailer), (next, sink), events⟩ := by
  rw [readPieces]
  split
  · next hresult => rw [hread] at hresult; cases hresult
  · next hresult => rw [hread] at hresult; cases hresult
  · next hresult =>
    rw [hread] at hresult
    obtain ⟨rfl, -⟩ := Prod.mk.inj (Option.some.inj (Except.ok.inj hresult))
    rw [hread]
  · next tag hnot hresult =>
    rw [hread] at hresult
    exact absurd (Prod.mk.inj (Option.some.inj (Except.ok.inj hresult))).2.symm hnot

/-- A fault ends the reading. -/
theorem readPieces_fault {fault : IoFault} (hread : r.readChunk.result = .error fault) :
    readPieces r sink done =
      ⟨.error fault, (r.readChunk.state, sink), r.readChunk.events⟩ := by
  rw [readPieces]
  split
  · next hresult =>
    obtain rfl := Except.error.inj (hresult.symm.trans hread)
    rfl
  · next hresult => rw [hread] at hresult; cases hresult
  · next hresult => rw [hread] at hresult; cases hresult
  · next hresult => rw [hread] at hresult; cases hresult

end

/-- **Frames of data that are ahead** are read and their plaintexts handed on, and then the reading
goes on behind them. -/
theorem readPieces_of_ahead (hdata : ∀ f ∈ frames, f.2 ≠ .final) (later : List (Bytes × Tag)) :
    ∀ {r : Reader} {sink : Sink} (done : List Bytes), r.Ahead (frames ++ later) back ending →
      sink.Healthy →
      ∃ (r' : Reader) (sink' : Sink) (events : List Event), r'.stream = behind r.stream frames ∧
        r'.Ahead later back ending ∧ sink'.Healthy ∧
        sink'.contents = sink.contents ++ frames.flatMap Prod.fst ∧
        readPieces r sink done =
          (readPieces r' sink' ((frames.map Prod.fst).reverse ++ done)).after events := by
  induction frames with
  | nil =>
    intro r sink done h hsink
    exact ⟨r, sink, [], rfl, h, hsink, (List.append_nil _).symm, rfl⟩
  | cons f frames ih =>
    obtain ⟨plaintext, tag⟩ := f
    obtain ⟨hfirst, hlater⟩ := List.forall_mem_cons.mp hdata
    intro r sink done h hsink
    obtain ⟨r₁, hread, hadvanced, hnext⟩ := h.readChunk
    obtain ⟨sink₁, hwrite, hhealthy, hcontents⟩ := hsink.writeAll plaintext
    obtain ⟨r', sink', events, hstream, hahead, hsink', hcontents', hpieces⟩ :=
      ih hlater (plaintext :: done) hnext hhealthy
    refine ⟨r', sink', (r.stream.advance tag).2 ++ events, ?_, hahead, hsink', ?_, ?_⟩
    · rw [hstream, hadvanced, behind]
    · rw [hcontents', hcontents, List.flatMap_cons, List.append_assoc]
    · rw [readPieces_data hread hfirst hwrite, hpieces, List.map_cons, List.reverse_cons,
        List.append_assoc, List.singleton_append]
      simp only [Outcome.after, List.append_assoc]

/-! ## Decrypting -/

section

variable {ends : Ends} {key : SessionKey} {config : Config} {header : Header}

/-- **A whole stream:** the plaintexts of its frames are handed on, the check decides, and nothing
behind the final frame is taken. -/
theorem decrypt_whole {trailer : Bytes}
    (hfit : AllFit (.fresh key header config) (frames ++ [(trailer, .final)]))
    (hdata : ∀ f ∈ frames, f.2 ≠ .final) (hsink : ends.sink.Healthy)
    (hsource : ends.source.Delivers
      (header.bytes ++ (wire (.fresh key header config) (frames ++ [(trailer, .final)]) ++ back))
      ending) :
    (decrypt ends key config).result = check (frames.flatMap Prod.fst) trailer ∧
      (decrypt ends key config).state.sink.contents =
        ends.sink.contents ++ frames.flatMap Prod.fst ∧
      (decrypt ends key config).state.source.Delivers back ending := by
  obtain ⟨source, hstart, hahead⟩ := Reader.ahead_of_delivers hsource hfit
  obtain ⟨r, sink, events, -, hlast, hsink', hcontents, hpieces⟩ :=
    readPieces_of_ahead hdata [(trailer, .final)] [] hahead hsink
  obtain ⟨r', hread, -, hend⟩ := hlast.readChunk
  obtain ⟨sink'', hflush, -, hsame⟩ := hsink'.flush
  rw [decrypt, hstart]
  simp only [hpieces, readPieces_final hread, Outcome.after, hflush, List.append_nil,
    List.reverse_reverse, ← List.flatMap_def]
  cases check (frames.flatMap Prod.fst) trailer with
  | error fault => exact ⟨rfl, hsame.trans hcontents, hend.behind⟩
  | ok epilogue => exact ⟨rfl, hsame.trans hcontents, hend.behind⟩

/-- **Behind frames of data** there is a reader that handed on their plaintexts, and if it meets
with a fault then decryption fails with it. -/
theorem decrypt_fault (hfit : AllFit (.fresh key header config) frames)
    (hdata : ∀ f ∈ frames, f.2 ≠ .final) (hsink : ends.sink.Healthy)
    (hsource : ends.source.Delivers
      (header.bytes ++ (wire (.fresh key header config) frames ++ back)) ending) :
    ∃ r : Reader, r.LimitsAgree ∧ r.stream = behind (.fresh key header config) frames ∧
      r.source.Delivers back ending ∧
      ∀ fault, r.readChunk.result = .error fault →
        (decrypt ends key config).result = .error (.io fault) ∧
        (decrypt ends key config).state.sink.contents =
          ends.sink.contents ++ frames.flatMap Prod.fst := by
  obtain ⟨source, hstart, hahead⟩ := Reader.ahead_of_delivers hsource hfit
  rw [← List.append_nil frames] at hahead
  obtain ⟨r, sink, events, hstream, hahead', -, hcontents, hpieces⟩ :=
    readPieces_of_ahead hdata [] [] hahead hsink
  refine ⟨r, hahead'.limits, hstream, hahead'.behind, ?_⟩
  intro fault hfault
  rw [decrypt, hstart]
  simp only [hpieces, readPieces_fault hfault, Outcome.after]
  exact ⟨trivial, hcontents⟩

/-- **Less than a header:** nothing is handed on, and the fault is that of the source. -/
theorem decrypt_short {bytes : Bytes} (hsource : ends.source.Delivers bytes ending)
    (hlt : bytes.length < 24) (key : SessionKey) (config : Config) :
    (decrypt ends key config).result = .error (.io (ending.getD .endOfInput)) ∧
      (decrypt ends key config).state.sink = ends.sink := by
  have hstart := Reader.start_of_short hsource hlt key config
  rw [decrypt]
  simp only [hstart]
  exact ⟨trivial, trivial⟩

/-- **Behind a preamble** that is delivered, decryption under a password goes on under the key that
is derived from it. -/
theorem decryptWithPassword_of_delivers {preamble : Preamble} {password : Bytes}
    (hcheck : preamble.costs.check = .ok ()) (hkey : preamble.deriveKey password = .ok key)
    (hsource : ends.source.Delivers (preamble.encode ++ back) ending) (config : Config) :
    ∃ source, source.Delivers back ending ∧
      decryptWithPassword ends password config =
        (decrypt { ends with source } key config).after preamble.derived := by
  obtain ⟨source, hread, hnext⟩ := Preamble.read_of_delivers hcheck hsource
  refine ⟨source, hnext, ?_⟩
  rw [decryptWithPassword, hread]
  simp only [hkey]

end

end AeadStream.Pipe
