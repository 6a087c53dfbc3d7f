import AeadStream.Proofs.Frame.Faults
import AeadStream.Proofs.Pipe.Encryption

/-!
# Faults only cut the ciphertext short

Encryption on ends that may fail at any point is compared with the same call on ends that never
do. As long as nothing fails, both write the same; after a fault nothing more is written, so the
ciphertext is a front part of the whole one, and success is reported only for the whole.

* `Calm` — ends without faults beside given ones;
* `writePieces_beside` — the pieces of a plaintext, by induction on the faulty run;
* `faults_only_cut` — encryption under a key and under a password.
-/

namespace AeadStream.Pipe

open AeadStream.Frame

variable {ρ : Type} [Entropy ρ] {random : ρ} {ends calm : Ends} {key : SessionKey}
  {config : Config} {chunkSize size : Nat}

/-! ## Ends without faults -/

/-- **Ends without faults,** beside others: they hold the same and never fail. -/
structure Calm (ends calm : Ends) : Prop where
  source : calm.source.Healthy
  rest : calm.source.rest = ends.source.rest
  sink : calm.sink.Healthy
  contents : calm.sink.contents = ends.sink.contents

/-- There are such ends beside all. -/
theorem calm_ofBytes (ends : Ends) :
    Calm ends ⟨.ofBytes ends.source.rest, { pieces := ends.sink.pieces }⟩ :=
  ⟨Source.healthy_ofBytes _, rfl, ⟨List.not_mem_nil, nofun, rfl, rfl⟩, rfl⟩

/-! ## Pieces -/

section

variable {source source' : Source} {w : Writer} {done : List Bytes}

/-- Nothing that was written is lost. -/
theorem grows_writePieces (size : Nat) (source : Source) (w : Writer) (done : List Bytes) :
    w.sink.contents <+: (writePieces size source w done).state.2.sink.contents := by
  fun_induction writePieces size source w done with
  | case1 => exact List.prefix_refl _
  | case2 => exact List.prefix_refl _
  | case3 source w done b bs => exact w.grows_writeChunk (b :: bs) .message
  | case4 source w done b bs => exact w.grows_writeChunk (b :: bs) .message
  | case5 source w done b bs source' hfill written hresult hshort ih =>
    exact (w.grows_writeChunk (b :: bs) .message).trans ih

/-- The first piece is written before all others. -/
theorem grows_piece {piece : Bytes} (hne : piece ≠ [])
    (hfill : source.fill size = (.ok piece, source')) :
    (w.writeChunk piece .message).state.sink.contents <+:
      (writePieces size source w done).state.2.sink.contents := by
  rw [writePieces]
  split
  · next h => rw [hfill] at h; cases h
  · next h => rw [hfill] at h; cases h; exact absurd rfl hne
  · next b bs next h =>
    rw [hfill] at h
    cases h
    cases hresult : (w.writeChunk (b :: bs) .message).result with
    | error fault =>
      simp only [hresult]
      exact List.prefix_refl _
    | ok _ =>
      simp only [hresult]
      split
      · exact List.prefix_refl _
      · exact grows_writePieces ..

/-- **Pieces are written alike** by a writer and the one beside it, up to the first fault. -/
theorem writePieces_beside (size : Nat) (done : List Bytes) (hsource : source.Steady) :
    ∀ {calmSource : Source} {calmWriter : Writer}, calmSource.Delivers source.rest none →
      w.Beside calmWriter →
      (writePieces size source w done).state.2.sink.contents <+:
          (writePieces size calmSource calmWriter done).state.2.sink.contents ∧
        ∀ written, (writePieces size source w done).result = .ok written →
          (writePieces size calmSource calmWriter done).result = .ok written ∧
            (writePieces size source w done).state.2.Beside
              (writePieces size calmSource calmWriter done).state.2 := by
  fun_induction writePieces size source w done with
  | case1 =>
    intro calmSource calmWriter hcalm hbeside
    refine ⟨?_, fun written hwritten => by cases hwritten⟩
    rw [← hbeside.contents]
    exact grows_writePieces ..
  | case2 source w done source' hfill =>
    intro calmSource calmWriter hcalm hbeside
    obtain ⟨calmSource', hfill', -⟩ := hcalm.fill size
    rw [← (hsource.fill hfill).1] at hfill'
    rw [writePieces_nil hfill']
    refine ⟨⟨[], ?_⟩, fun written hwritten => ⟨hwritten, hbeside⟩⟩
    rw [List.append_nil, hbeside.contents]
  | case3 source w done b bs source' hfill =>
    intro calmSource calmWriter hcalm hbeside
    obtain ⟨calmSource', hfill', -⟩ := hcalm.fill size
    rw [← (hsource.fill hfill).1] at hfill'
    refine ⟨?_, fun written hwritten => by cases hwritten⟩
    exact (hbeside.writeChunk (b :: bs) .message).1.trans
      (grows_piece (List.cons_ne_nil b bs) hfill')
  | case4 source w done b bs source' hfill sent hresult hshort =>
    intro calmSource calmWriter hcalm hbeside
    obtain ⟨calmSource', hfill', -⟩ := hcalm.fill size
    rw [← (hsource.fill hfill).1] at hfill'
    obtain ⟨calm', events, hwrite, hbeside'⟩ := (hbeside.writeChunk (b :: bs) .message).2 hresult
    rw [writePieces_cons (List.cons_ne_nil b bs) hfill' hwrite, if_pos hshort]
    refine ⟨⟨[], ?_⟩, fun written hwritten => ⟨hwritten, hbeside'⟩⟩
    rw [List.append_nil, hbeside'.contents]
  | case5 source w done b bs source' hfill sent hresult hshort ih =>
    intro calmSource calmWriter hcalm hbeside
    obtain ⟨hgot, hleft, hsteady⟩ := hsource.fill hfill
    obtain ⟨calmSource', hfill', hnext⟩ := hcalm.fill size
    rw [← hgot] at hfill'
    rw [← hleft] at hnext
    obtain ⟨calm', events, hwrite, hbeside'⟩ := (hbeside.writeChunk (b :: bs) .message).2 hresult
    rw [writePieces_cons (List.cons_ne_nil b bs) hfill' hwrite, if_neg hshort]
    exact ih hsteady hnext hbeside'

end

/-! ## Encryption -/

/-- **An outcome cut short** beside one without faults: its sink holds a front part of the bytes,
and all of them if the call succeeded, which it does only if the other one does. Then they were
flushed. -/
structure CutShort (o calm : Outcome CommandFault Ends Epilogue) : Prop where
  within : o.state.sink.contents <+: calm.state.sink.contents
  complete : ∀ epilogue, o.result = .ok epilogue → calm.result = .ok epilogue ∧
    o.state.sink.contents = calm.state.sink.contents ∧ o.state.sink.flushed = true

/-- The pieces are written before the rest of an encryption. -/
theorem grows_of_pieces {w : Writer}
    (hstart : (Writer.start ends.sink key random config).result = .ok w) (chunkSize : Nat) :
    (writePieces (max chunkSize 1) ends.source w []).state.2.sink.contents <+:
      (encrypt ends key random config chunkSize).state.sink.contents := by
  rw [encrypt]
  simp only [hstart]
  cases (writePieces (max chunkSize 1) ends.source w []).result with
  | error fault => exact List.prefix_refl _
  | ok pieces =>
    have hgrows := Writer.grows_finish (writePieces (max chunkSize 1) ends.source w []).state.2
      (Epilogue.ofPlaintext pieces.reverse.flatten).encode
    dsimp only
    split
    · exact hgrows
    · exact hgrows

/-- The header is written before the rest of an encryption. -/
theorem grows_of_start (ends : Ends) (key : SessionKey) (random : ρ) (config : Config)
    (chunkSize : Nat) :
    (Writer.start ends.sink key random config).state.contents <+:
      (encrypt ends key random config chunkSize).state.sink.contents := by
  cases hstart : (Writer.start ends.sink key random config).result with
  | error fault =>
    rw [encrypt]
    simp only [hstart]
    exact List.prefix_refl _
  | ok w =>
    rw [Writer.state_of_start hstart]
    exact (grows_writePieces ..).trans (grows_of_pieces hstart chunkSize)

/-- **Faults cut an encryption short.** -/
theorem cutShort_encrypt (hcalm : Calm ends calm) (hsource : ends.source.Steady)
    (key : SessionKey) (random : ρ) (config : Config) (chunkSize : Nat) :
    CutShort (encrypt ends key random config chunkSize)
      (encrypt calm key random config chunkSize) := by
  obtain ⟨hheader, hbegan⟩ :=
    Writer.beside_of_start hcalm.sink hcalm.contents key random config
  cases hstart : (Writer.start ends.sink key random config).result with
  | error fault =>
    have hcut : encrypt ends key random config chunkSize =
        ⟨.error (.io fault),
          { ends with sink := (Writer.start ends.sink key random config).state },
          (Writer.start ends.sink key random config).events⟩ := by
      rw [encrypt]
      simp only [hstart]
    rw [hcut]
    exact ⟨hheader.trans (grows_of_start calm key random config chunkSize), fun epilogue h => by cases h⟩
  | ok w =>
    obtain ⟨calmWriter, hstart', hbeside⟩ := hbegan w hstart
    obtain ⟨hdata, hwrote⟩ := writePieces_beside (max chunkSize 1) [] hsource
      (hcalm.source.delivers hcalm.rest) hbeside
    cases hpieces : (writePieces (max chunkSize 1) ends.source w []).result with
    | error fault =>
      have hgrows := grows_of_pieces hstart' chunkSize
      rw [encrypt]
      simp only [hstart, hpieces]
      exact ⟨hdata.trans hgrows, fun epilogue h => by cases h⟩
    | ok pieces =>
      obtain ⟨hpieces', hbeside'⟩ := hwrote pieces hpieces
      obtain ⟨hwithin, hfinish⟩ :=
        hbeside'.finish (Epilogue.ofPlaintext pieces.reverse.flatten).encode
      rw [encrypt, encrypt]
      simp only [hstart, hstart', hpieces, hpieces']
      split
      · refine ⟨?_, fun epilogue h => by cases h⟩
        dsimp only
        split
        · exact hwithin
        · exact hwithin
      · next hfinished =>
        obtain ⟨hfinished', hsame, hflushed⟩ := hfinish hfinished
        simp only [hfinished']
        exact ⟨hwithin, fun epilogue h => ⟨h, hsame, hflushed⟩⟩

/-- Encryption loses nothing that was written. -/
theorem grows_encrypt (ends : Ends) (key : SessionKey) (random : ρ) (config : Config)
    (chunkSize : Nat) :
    ends.sink.contents <+: (encrypt ends key random config chunkSize).state.sink.contents :=
  (Writer.grows_start ends.sink key random config).trans
    (grows_of_start ends key random config chunkSize)

/-- **Faults cut an encryption under a password short.** -/
theorem cutShort_encryptWithPassword (hcalm : Calm ends calm) (hsource : ends.source.Steady)
    (password : Bytes) (random : ρ) (costs : Argon2.Costs) (config : Config) (chunkSize : Nat) :
    CutShort (encryptWithPassword ends password random costs config chunkSize)
      (encryptWithPassword calm password random costs config chunkSize) := by
  -- what is refused before the preamble leaves both as they were
  have hnothing : ∀ fault, CutShort ⟨.error fault, ends, []⟩ ⟨.error fault, calm, []⟩ := by
    intro fault
    refine ⟨⟨[], ?_⟩, fun epilogue h => by cases h⟩
    rw [List.append_nil, hcalm.contents]
  rw [encryptWithPassword, encryptWithPassword]
  rcases Preamble.generate random costs with ⟨fault | preamble, random'⟩
  · exact hnothing fault
  cases hkey : preamble.deriveKey password with
  | error fault =>
    simp only [hkey]
    exact hnothing fault
  | ok key =>
    obtain ⟨front, hfront, hcontents⟩ := ends.sink.writeAll_within preamble.encode
    obtain ⟨calmSink, hwrite', hhealthy, hcontents'⟩ := hcalm.sink.writeAll preamble.encode
    rw [hcalm.contents] at hcontents'
    rcases hwrite : ends.sink.writeAll preamble.encode with ⟨fault | _, sink⟩
    · -- the preamble is cut
      rw [hwrite] at hcontents
      simp only [hkey, hwrite, hwrite']
      refine ⟨?_, fun epilogue h => by cases h⟩
      refine List.IsPrefix.trans ?_
        (grows_encrypt { calm with sink := calmSink } key random' config chunkSize)
      dsimp only
      rw [hcontents, hcontents']
      exact (List.prefix_append_right_inj _).mpr hfront
    · have hsame : calmSink.contents = sink.contents := by
        rw [hcontents', Sink.contents_of_writeAll hwrite]
      have hcalm' : Calm { ends with sink } { calm with sink := calmSink } :=
        ⟨hcalm.source, hcalm.rest, hhealthy, hsame⟩
      obtain ⟨hwithin, hcomplete⟩ := cutShort_encrypt hcalm' hsource key random' config chunkSize
      simp only [hkey, hwrite, hwrite']
      exact ⟨hwithin, hcomplete⟩

/-! ## What is refused -/

/-- **An encryption under a password is refused at once:** its costs are, or its password is, or
there is no salt. -/
inductive RefusedAtOnce (password : Bytes) (random : ρ) (costs : Argon2.Costs) : Prop
  | costs {fault : CommandFault} (hcheck : costs.check = .error fault)
  | password (hpassword : password = [] ∨ UInt32.size ≤ password.length)
  | salt {reason : String} (hdraw : (Entropy.draw random 16).1 = .error reason)

/-- A call failed and left its ends as they were. -/
structure Untouched (ends : Ends) (o : Outcome CommandFault Ends Epilogue) : Prop where
  failed : ∃ fault, o.result = .error fault
  state : o.state = ends

/-- A writer that cannot start leaves the ends of an encryption as they were. -/
theorem untouched_encrypt (h : Writer.Refused config random) (ends : Ends) (key : SessionKey)
    (chunkSize : Nat) : Untouched ends (encrypt ends key random config chunkSize) := by
  obtain ⟨fault, hresult, hstate⟩ := Writer.start_of_refused h ends.sink key
  rw [encrypt]
  simp only [hresult, hstate]
  exact ⟨⟨_, rfl⟩, rfl⟩

/-- No key comes from a password that is refused. -/
theorem deriveKey_of_refused {password : Bytes}
    (h : password = [] ∨ UInt32.size ≤ password.length) (preamble : Preamble) :
    ∃ fault, preamble.deriveKey password = .error fault := by
  rw [Preamble.deriveKey]
  split
  · exact ⟨_, rfl⟩
  · next hne =>
    split
    · exact ⟨_, rfl⟩
    · rw [if_pos (h.resolve_left hne)]
      exact ⟨_, rfl⟩

/-- What is refused at once leaves the ends as they were. -/
theorem untouched_encryptWithPassword {password : Bytes} {costs : Argon2.Costs}
    (h : RefusedAtOnce password random costs) (ends : Ends) (config : Config) (chunkSize : Nat) :
    Untouched ends (encryptWithPassword ends password random costs config chunkSize) := by
  rw [encryptWithPassword]
  rcases hgenerate : Preamble.generate random costs with ⟨fault | preamble, random'⟩
  · exact ⟨⟨_, rfl⟩, rfl⟩
  · obtain ⟨fault, hkey⟩ : ∃ fault, preamble.deriveKey password = .error fault := by
      cases h with
      | password hpassword => exact deriveKey_of_refused hpassword preamble
      | costs hcheck =>
        rw [Preamble.generate, hcheck] at hgenerate
        cases hgenerate
      | salt hdraw =>
        rw [Preamble.generate] at hgenerate
        split at hgenerate
        · cases hgenerate
        · split at hgenerate
          · cases hgenerate
          · next hdrawn =>
            rw [hdrawn] at hdraw
            cases hdraw
    simp only [hkey]
    exact ⟨⟨_, rfl⟩, rfl⟩

/-- A writer that cannot start behind a preamble leaves no more than a front part of that. -/
theorem preamble_of_refused {password : Bytes} {costs : Argon2.Costs} {preamble : Preamble}
    {random' : ρ} (hgenerate : Preamble.generate random costs = (.ok preamble, random'))
    (h : Writer.Refused config random') (ends : Ends) (chunkSize : Nat) :
    (∃ fault, (encryptWithPassword ends password random costs config chunkSize).result =
        .error fault) ∧
      ∃ front, front <+: preamble.encode ∧
        (encryptWithPassword ends password random costs config chunkSize).state.sink.contents =
          ends.sink.contents ++ front := by
  rw [encryptWithPassword, hgenerate]
  cases hkey : preamble.deriveKey password with
  | error fault =>
    simp only [hkey]
    exact ⟨⟨_, rfl⟩, [], List.nil_prefix, (List.append_nil _).symm⟩
  | ok key =>
    obtain ⟨front, hfront, hcontents⟩ := ends.sink.writeAll_within preamble.encode
    rcases hwrite : ends.sink.writeAll preamble.encode with ⟨fault | _, sink⟩
    · rw [hwrite] at hcontents
      simp only [hkey, hwrite]
      exact ⟨⟨_, rfl⟩, front, hfront, hcontents⟩
    · rw [hwrite] at hcontents
      obtain ⟨hfailed, hstate⟩ := untouched_encrypt h { ends with sink } key chunkSize
      simp only [hkey, hwrite, Outcome.result_after, Outcome.state_after, hstate]
      exact ⟨hfailed, front, hfront, hcontents⟩

/-! ## Faults only cut the ciphertext short -/

/-- **Faults only cut the ciphertext short** that comes from these ends. -/
structure OnlyCut (ends : Ends) (key : SessionKey) (password : Bytes) (random : ρ)
    (costs : Argon2.Costs) (config : Config) (chunkSize : Nat) : Prop where
  /-- what is written is a front part of what is written without faults -/
  underKey : ∀ calm, Calm ends calm →
    CutShort (encrypt ends key random config chunkSize) (encrypt calm key random config chunkSize)
  underPassword : ∀ calm, Calm ends calm →
    CutShort (encryptWithPassword ends password random costs config chunkSize)
      (encryptWithPassword calm password random costs config chunkSize)
  /-- what is refused writes nothing -/
  refused : Writer.Refused config random →
    Untouched ends (encrypt ends key random config chunkSize)
  refusedAtOnce : RefusedAtOnce password random costs →
    Untouched ends (encryptWithPassword ends password random costs config chunkSize)
  /-- what is refused behind a preamble writes no more than that -/
  refusedLater : ∀ preamble random', Preamble.generate random costs = (.ok preamble, random') →
    Writer.Refused config random' →
    (∃ fault, (encryptWithPassword ends password random costs config chunkSize).result =
        .error fault) ∧
      ∃ front, front <+: preamble.encode ∧
        (encryptWithPassword ends password random costs config chunkSize).state.sink.contents =
          ends.sink.contents ++ front

/-- **Faults only cut the ciphertext short,** whatever the sink does, as long as the source gives
bytes until it fails. The sink holds a front part of what it holds without faults; success means
all of it, flushed; and what is refused writes nothing but the preamble before it. -/
theorem faults_only_cut (hsource : ends.source.Steady) (key : SessionKey) (password : Bytes)
    (random : ρ) (costs : Argon2.Costs) (config : Config) (chunkSize : Nat) :
    OnlyCut ends key password random costs config chunkSize where
  underKey _ hcalm := cutShort_encrypt hcalm hsource key random config chunkSize
  underPassword _ hcalm :=
    cutShort_encryptWithPassword hcalm hsource password random costs config chunkSize
  refused h := untouched_encrypt h ends key chunkSize
  refusedAtOnce h := untouched_encryptWithPassword h ends config chunkSize
  refusedLater _ _ hgenerate h := preamble_of_refused hgenerate h ends chunkSize

/-- A source that is interrupted, then gives one byte and fails behind three more, and a sink that
takes two bytes at once and is full behind forty. -/
theorem faults_only_cut_on_a_full_sink :
    ∃ ends calm : Ends, ends.source.stop = some (4, .device "unplugged") ∧
      ends.sink.room = some 40 ∧ ends.source.Steady ∧ Calm ends calm ∧
      OnlyCut ends (.zero 32) [115] (Tape.mk (Octets.zero 40).bytes) ⟨8, 1, 1⟩ {} 2 := by
  have hsteady : Source.Steady
      { rest := [1, 2, 3, 4, 5]
        turns := [.interrupt, .upTo 1]
        stop := some (4, .device "unplugged") } := ⟨fun _ => by decide, fun _ => nofun⟩
  exact ⟨⟨_, { turns := [.interrupt, .upTo 2], stride := some 2, room := some 40 }⟩, _, rfl, rfl,
    hsteady, calm_ofBytes _, faults_only_cut hsteady _ _ _ _ _ _⟩

end AeadStream.Pipe
